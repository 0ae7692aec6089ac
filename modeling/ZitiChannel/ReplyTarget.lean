import Mathlib.Data.List.TakeWhile
import ZitiChannel.Fragmentation
import ZitiChannel.HeaderEncoders

/-!
# What a message replies to, before and after the wire

The reply target of a message is in two places: a header, which travels, and a cache, which the
accessors fill on first use and which `ReplyTo` sets.  Marshalling writes what is cached into the
header.

So an accessor decides what is sent: the target it reads is the one that goes out, whatever is stored
under the header later, and a message that was never a reply goes out with a header that says so.
The receiver nevertheless reads the target that the sender reports, since both take it from the same
header.

## Main definitions

* `HeaderValue`, `Message.putHeader` — the forms in which a header can be put.
* `MessageOp`, `MessageOp.run` — what can be done to a message, and what looks at it.
* `LooksAside` — looking makes no difference.

## Main results

* `run_agree` — with and without looking, messages differ in the cache only.
* `looking_iff` — **when looking at a message does not change what is sent.**
* `replyTarget_agrees` — **sender and receiver agree on the reply target.**

The source is `message.go`.
-/

namespace ZitiChannel

open ByteStream ByteSource

/-! ### Putting headers -/

/-- The value of a header, in the forms in which it can be put. -/
inductive HeaderValue
  | uint64 (value : UInt64)
  | uint32 (value : UInt32)
  | uint16 (value : UInt16)
  | byte (value : UInt8)
  | string (value : GoString)
  | bool (value : Bool)
  | stringSlice (s : List GoString)
  | u32ToBytesMap (m : Finmap fun _ : UInt32 => Option Bytes) (sizing writing : Ranging.Order m)
  | stringToStringMap (m : Finmap fun _ : GoString => GoString) (sizing writing : Ranging.Order m)

/-- The bytes that are stored for it. -/
def HeaderValue.encode : HeaderValue → Encoded Bytes
  | .uint64 value => .ok (leBytes 8 value.toNat)
  | .uint32 value => .ok (putUint32 value)
  | .uint16 value => .ok (leBytes 2 value.toNat)
  | .byte value => .ok [value]
  | .string value => .ok value
  | .bool value => .ok [if value then 1 else 0]
  | .stringSlice s => encodeStringSlice s
  | .u32ToBytesMap m sizing writing => encodeU32ToBytesMap m sizing writing
  | .stringToStringMap m sizing writing => encodeStringToStringMap m sizing writing

/-- No value makes an encoder panic. -/
theorem HeaderValue.encode_ok (value : HeaderValue) : ∃ b, value.encode = .ok b := by
  cases value with
  | stringSlice s => exact ⟨_, (decodeStringSlice_encoded s).choose_spec.1⟩
  | u32ToBytesMap m sizing writing =>
    exact ⟨_, (decodeU32ToBytesMap_encoded m sizing writing).choose_spec.1⟩
  | stringToStringMap m sizing writing =>
    exact ⟨_, (decodeStringToStringMap_encoded m sizing writing).choose_spec.1⟩
  | _ => exact ⟨_, rfl⟩

/-- `PutUint64Header`, `PutUint32Header` and the others: one for each form of value. -/
def Message.putHeader (m : Message) (key : Int32) (value : HeaderValue) : Encoded Message := do
  let encoded ← value.encode
  .ok { m with headers := Finmap.insert key encoded m.headers }

/-! ### What is done to a message -/

/-- The calls that only look. -/
inductive Observer
  | isReply
  | replyFor
  | isReplyingTo (sequence : Int32)
  /-- `String`, which asks whether the message is a reply. -/
  | string

/-- What a message is after such a call: each of them fills the cache first. -/
def Message.observe (m : Message) (_ : Observer) : Message :=
  { m with toMessageHeader := m.toMessageHeader.cacheReplyFor }

inductive MessageOp
  | put (key : Int32) (value : HeaderValue)
  | replyTo (o : Message)
  | observe (o : Observer)

namespace MessageOp

def apply (m : Message) : MessageOp → Encoded Message
  | .put key value => m.putHeader key value
  | .replyTo o => .ok (m.replyTo o)
  | .observe o => .ok (m.observe o)

def run (m : Message) (ops : List MessageOp) : Encoded Message := ops.foldlM apply m

def observes : MessageOp → Bool
  | .observe _ => true
  | _ => false

def answers : MessageOp → Bool
  | .replyTo _ => true
  | _ => false

/-- The sequence without the calls that only look. -/
def unobserved (ops : List MessageOp) : List MessageOp := ops.filter fun op => !op.observes

end MessageOp

open MessageOp

/-! ### Messages that differ in the cache -/

/-- The messages are the same but for the cache. -/
structure AgreeButCache (m m' : Message) : Prop where
  contentType : m.contentType = m'.contentType
  sequence : m.sequence = m'.sequence
  headers : m.headers = m'.headers
  body : m.body = m'.body

section

variable {m m' : Message}

theorem AgreeButCache.refl (m : Message) : AgreeButCache m m := ⟨rfl, rfl, rfl, rfl⟩

theorem AgreeButCache.trans {k : Message} (h : AgreeButCache k m) (h' : AgreeButCache m m') :
    AgreeButCache k m' :=
  ⟨h.contentType.trans h'.contentType, h.sequence.trans h'.sequence, h.headers.trans h'.headers,
    h.body.trans h'.body⟩

theorem AgreeButCache.eq (h : AgreeButCache m m') (hcache : m.cachedReplyFor = m'.cachedReplyFor) :
    m = m' := by
  obtain ⟨⟨contentType, sequence, cache, headers⟩, body⟩ := m
  obtain ⟨⟨contentType', sequence', cache', headers'⟩, body'⟩ := m'
  obtain ⟨rfl, rfl, rfl, rfl⟩ := h
  cases hcache
  rfl

/-- A call that only looks changes the cache, and only an empty one. -/
theorem observe_agree (m : Message) (o : Observer) :
    AgreeButCache (m.observe o) m ∧
      (m.observe o).cachedReplyFor = some (m.cachedReplyFor.getD m.replyFor) := by
  simp only [Message.observe, MessageHeader.replyFor, MessageHeader.cacheReplyFor]
  cases hc : m.cachedReplyFor with
  | some v => exact ⟨.refl m, hc⟩
  | none => exact ⟨⟨rfl, rfl, rfl, rfl⟩, rfl⟩

/-- The other calls do the same to both messages.  `ReplyTo` sets the cache, and putting a header
leaves it. -/
theorem apply_agree (h : AgreeButCache m m') {op : MessageOp} (hop : op.observes = false) :
    ∃ n n', apply m op = .ok n ∧ apply m' op = .ok n' ∧ AgreeButCache n n' ∧
      if op.answers then n.cachedReplyFor = n'.cachedReplyFor
      else n.cachedReplyFor = m.cachedReplyFor ∧ n'.cachedReplyFor = m'.cachedReplyFor := by
  cases op with
  | put key value =>
    obtain ⟨b, hb⟩ := value.encode_ok
    have hput : ∀ m : Message, apply m (.put key value) =
        .ok { m with headers := Finmap.insert key b m.headers } := by
      intro m
      rw [apply, Message.putHeader, hb]
      rfl
    exact ⟨_, _, hput m, hput m', ⟨h.contentType, h.sequence, by rw [h.headers], h.body⟩, rfl, rfl⟩
  | replyTo o =>
    refine ⟨_, _, rfl, rfl, ⟨h.contentType, h.sequence, ?_, h.body⟩, rfl⟩
    rw [Message.replyTo, Message.replyTo, h.headers]
  | observe o => cases hop

theorem run_cons_ok {op : MessageOp} {ops : List MessageOp} {n : Message} :
    run m (op :: ops) = .ok n ↔ ∃ k, apply m op = .ok k ∧ run k ops = .ok n := by
  rw [run, List.foldlM_cons]
  cases h : apply m op with
  | ok k =>
    refine ⟨fun hn => ⟨k, rfl, hn⟩, ?_⟩
    rintro ⟨_, ⟨⟩, hn⟩
    exact hn
  | error err =>
    constructor
    · rintro ⟨⟩
    · rintro ⟨_, ⟨⟩, -⟩

/-- Only `ReplyTo` changes a filled cache, and only a look fills an empty one. -/
theorem apply_cached {op : MessageOp} {n : Message} (h : apply m op = .ok n)
    (hans : op.answers = false) (hkeep : m.cachedReplyFor.isSome ∨ op.observes = false) :
    n.cachedReplyFor = m.cachedReplyFor := by
  cases op with
  | put key value =>
    have hput : (put key value).observes = false := rfl
    obtain ⟨_, _, hn, -, -, hcache⟩ := apply_agree (.refl m) hput
    rw [h] at hn
    cases hn
    exact hcache.1
  | replyTo o => cases hans
  | observe o =>
    cases h
    obtain ⟨v, hv⟩ := Option.isSome_iff_exists.mp (hkeep.resolve_right (by simp [observes]))
    rw [(observe_agree m o).2, hv, Option.getD_some]

theorem run_cached : ∀ (ops : List MessageOp) {m n : Message}, run m ops = .ok n →
    (¬ ∃ op ∈ ops, op.answers) →
    (m.cachedReplyFor.isSome ∨ ∀ op ∈ ops, op.observes = false) →
    n.cachedReplyFor = m.cachedReplyFor := by
  intro ops
  induction ops with
  | nil =>
    intro m n h _ _
    cases h
    rfl
  | cons op ops ih =>
    intro m n h hno hkeep
    obtain ⟨k, hk, hn⟩ := run_cons_ok.mp h
    have hans : op.answers = false := by
      rw [← Bool.not_eq_true]
      exact fun hans => hno ⟨op, List.mem_cons_self, hans⟩
    have hcache := apply_cached hk hans (hkeep.imp_right fun h => h op List.mem_cons_self)
    rw [← hcache]
    refine ih hn (fun ⟨op, hmem, hans⟩ => hno ⟨op, List.mem_cons_of_mem _ hmem, hans⟩) ?_
    rw [hcache]
    exact hkeep.imp_right fun h op hmem => h op (List.mem_cons_of_mem _ hmem)

theorem not_observes_of_mem_unobserved {op : MessageOp} {ops : List MessageOp}
    (h : op ∈ unobserved ops) : op.observes = false := by
  simpa using (List.mem_filter.mp h).2

/-- **With and without looking**, the messages differ in the cache only; and not in that either once
`ReplyTo` has been called. -/
theorem run_agree : ∀ (ops : List MessageOp) {m m' : Message}, AgreeButCache m m' →
    ∃ n n', run m ops = .ok n ∧ run m' (unobserved ops) = .ok n' ∧ AgreeButCache n n' ∧
      ((∃ op ∈ ops, op.answers) → n.cachedReplyFor = n'.cachedReplyFor) := by
  intro ops
  induction ops with
  | nil =>
    intro m m' h
    exact ⟨m, m', rfl, rfl, h, by simp⟩
  | cons op ops ih =>
    intro m m' h
    cases hop : op.observes with
    | true =>
      -- only the first message sees this call
      obtain ⟨o, rfl⟩ : ∃ o, op = .observe o := by
        cases op with
        | observe o => exact ⟨o, rfl⟩
        | put key value => cases hop
        | replyTo o => cases hop
      obtain ⟨hsame, -⟩ := observe_agree m o
      obtain ⟨n, n', hn, hn', hagree, hanswers⟩ := ih (hsame.trans h)
      refine ⟨n, n', hn, hn', hagree, ?_⟩
      rintro ⟨op, hmem, hans⟩
      rcases List.mem_cons.mp hmem with rfl | hmem
      · cases hans
      · exact hanswers ⟨op, hmem, hans⟩
    | false =>
      obtain ⟨k, k', hk, hk', hsame, hcache⟩ := apply_agree h hop
      obtain ⟨n, n', hn, hn', hagree, hanswers⟩ := ih hsame
      have hrun' : run m' (unobserved (op :: ops)) = .ok n' := by
        rw [unobserved, List.filter_cons_of_pos (by rw [hop]; rfl)]
        exact run_cons_ok.mpr ⟨k', hk', hn'⟩
      refine ⟨n, n', run_cons_ok.mpr ⟨k, hk, hn⟩, hrun', hagree, ?_⟩
      rintro ⟨op', hmem, hans⟩
      by_cases hlater : ∃ op ∈ ops, op.answers
      · exact hanswers hlater
      · -- `ReplyTo` is this call, and the cache stays as it sets it
        have hop' : op.answers := by
          rcases List.mem_cons.mp hmem with rfl | hmem
          · exact hans
          · exact absurd ⟨op', hmem, hans⟩ hlater
        rw [if_pos hop'] at hcache
        have hfilled : k.cachedReplyFor.isSome := by
          cases op with
          | replyTo o => cases hk; rfl
          | put key value => cases hop'
          | observe o => cases hop'
        have hlater' : ¬ ∃ op ∈ unobserved ops, op.answers := fun ⟨op, hmem, hans⟩ =>
          hlater ⟨op, (List.mem_filter.mp hmem).1, hans⟩
        rw [run_cached ops hn hlater (.inl hfilled), hcache, run_cached _ hn' hlater'
          (.inr fun _ => not_observes_of_mem_unobserved)]

/-- If somebody looks, somebody looks first. -/
theorem exists_first_look {ops : List MessageOp} (hlook : ¬ ∀ op ∈ ops, op.observes = false) :
    ∃ o after, ops = (ops.takeWhile fun op => !op.observes) ++ .observe o :: after := by
  induction ops with
  | nil => exact absurd (by simp) hlook
  | cons op ops ih =>
    cases op with
    | observe o => exact ⟨o, ops, rfl⟩
    | put key value =>
      obtain ⟨o, after, h⟩ := ih fun hall => hlook (List.forall_mem_cons.mpr ⟨rfl, hall⟩)
      exact ⟨o, after, congrArg _ h⟩
    | replyTo m =>
      obtain ⟨o, after, h⟩ := ih fun hall => hlook (List.forall_mem_cons.mpr ⟨rfl, hall⟩)
      exact ⟨o, after, congrArg _ h⟩

/-- What is cached at the end, if `ReplyTo` is never called: the target that the first look read. -/
theorem first_look {ops : List MessageOp} {n : Message} (hm : m.cachedReplyFor = none)
    (hno : ¬ ∃ op ∈ ops, op.answers) (hlook : ¬ ∀ op ∈ ops, op.observes = false)
    (hn : run m ops = .ok n) :
    ∃ seen, run m (ops.takeWhile fun op => !op.observes) = .ok seen ∧
      n.cachedReplyFor = some seen.replyFor := by
  obtain ⟨o, after, hsplit⟩ := exists_first_look hlook
  have hbefore : ∀ op ∈ ops.takeWhile fun op => !op.observes, op.observes = false := by
    intro op hop
    simpa using List.mem_takeWhile_imp hop
  generalize ops.takeWhile (fun op => !op.observes) = before at hsplit hbefore ⊢
  subst hsplit
  -- up to the first look nothing is cached
  obtain ⟨seen, _, hseen, -, -, -⟩ := run_agree before (.refl m)
  have hempty : seen.cachedReplyFor = none := by
    rw [run_cached before hseen (fun ⟨op, hmem, hans⟩ =>
      hno ⟨op, List.mem_append_left _ hmem, hans⟩) (.inr hbefore), hm]
  -- and from then on it stays
  obtain ⟨-, hlooked⟩ := observe_agree seen o
  have hafter : run (seen.observe o) after = .ok n := by
    rw [run, List.foldlM_append, show before.foldlM apply m = .ok seen from hseen] at hn
    exact hn
  refine ⟨seen, hseen, ?_⟩
  rw [run_cached after hafter (fun ⟨op, hmem, hans⟩ => hno ⟨op, by simp [hmem], hans⟩)
    (.inl (by rw [hlooked]; rfl)), hlooked, hempty, Option.getD_none]

end

/-! ### Looking at a message -/

/-- Looking makes no difference: nobody looks, or `ReplyTo` is called, or what is stored under the
header at the end is the encoding of the target that the first look read. -/
def LooksAside (contentType : Int32) (body : Bytes) (ops : List MessageOp) : Prop :=
  (∀ op ∈ ops, op.observes = false) ∨ (∃ op ∈ ops, op.answers) ∨
    ∃ seen sent,
      run (newMessage contentType body) (ops.takeWhile fun op => !op.observes) = .ok seen ∧
      run (newMessage contentType body) (unobserved ops) = .ok sent ∧
      sent.headers.lookup replyForHeader = some (putInt32 seen.replyFor)

/-- It makes no difference exactly if the headers that are marshalled are the same. -/
theorem looksAside_iff {contentType : Int32} {body : Bytes} {ops : List MessageOp} {m m' : Message}
    (hm : run (newMessage contentType body) ops = .ok m)
    (hm' : run (newMessage contentType body) (unobserved ops) = .ok m') :
    LooksAside contentType body ops ↔ m.putReplyFor.headers = m'.putReplyFor.headers := by
  obtain ⟨n, n', hn, hn', hagree, hanswers⟩ := run_agree ops (.refl (newMessage contentType body))
  rw [hm] at hn
  rw [hm'] at hn'
  cases hn
  cases hn'
  by_cases hlook : ∀ op ∈ ops, op.observes = false
  · have hsame : unobserved ops = ops := List.filter_eq_self.mpr fun op hop => by simp [hlook op hop]
    rw [hsame, hm] at hm'
    cases hm'
    exact iff_of_true (.inl hlook) rfl
  by_cases hans : ∃ op ∈ ops, op.answers
  · refine iff_of_true (.inr (.inl hans)) ?_
    rw [hagree.eq (hanswers hans)]
  -- the first message has a cached target, the second has none
  obtain ⟨seen, hseen, hcache⟩ := first_look rfl hans hlook hm
  have hcache' : m'.cachedReplyFor = none :=
    run_cached _ hm' (fun ⟨op, hmem, h⟩ => hans ⟨op, (List.mem_filter.mp hmem).1, h⟩)
      (.inr fun _ => not_observes_of_mem_unobserved)
  have hplain : m'.putReplyFor.headers = m'.headers := by
    simp only [Message.putReplyFor, hcache']
  have hwritten : m.putReplyFor.headers =
      m'.headers.putUint32Header replyForHeader seen.replyFor.toUInt32 := by
    simp only [Message.putReplyFor, hcache, hagree.headers]
  rw [hplain, hwritten]
  constructor
  · rintro (h | h | ⟨seen', sent, hseen', hsent, hlookup⟩)
    · exact absurd h hlook
    · exact absurd h hans
    · rw [hseen] at hseen'
      rw [hm'] at hsent
      cases hseen'
      cases hsent
      refine Finmap.ext_lookup fun key => ?_
      rw [Headers.putUint32Header]
      by_cases hkey : key = replyForHeader
      · rw [hkey, Finmap.lookup_insert, hlookup]
        rfl
      · rw [Finmap.lookup_insert_of_ne _ hkey]
  · intro h
    refine .inr (.inr ⟨seen, m', hseen, hm', ?_⟩)
    rw [← h, Headers.putUint32Header, Finmap.lookup_insert]
    rfl

/-- The headers that are decoded from a frame. -/
def headersOf (r : Except WireError Message) : Except WireError Headers := r.map (·.headers)

/-- **Looking at a message does not change what is sent**, if and only if nobody looks, or `ReplyTo`
is called, or the target that the first look read is stored under the header at the end.  Then the
frames are the same byte for byte; otherwise the decoded headers differ, as long as the frames are
not too large to be decoded at all. -/
theorem looking_iff {σ τ : Type} [ByteSource σ] [ByteSource τ] (contentType : Int32) (body : Bytes)
    (ops : List MessageOp) :
    ∃ m m', run (newMessage contentType body) ops = .ok m ∧
      run (newMessage contentType body) (unobserved ops) = .ok m' ∧
      (LooksAside contentType body ops → ∀ order : Ranging.Order m.putReplyFor.headers,
        ∃ order' : Ranging.Order m'.putReplyFor.headers, marshalV2 m' order' = marshalV2 m order) ∧
      ∀ (order : Ranging.Order m.putReplyFor.headers)
        (order' : Ranging.Order m'.putReplyFor.headers)
        (s : σ) (s' : τ), (Outgoing.mk m order).dataLen ≤ maxInt32 →
        (Outgoing.mk m' order').dataLen ≤ maxInt32 → remaining s = marshalV2 m order →
        remaining s' = marshalV2 m' order' →
        (headersOf (readV2 s).1 = headersOf (readV2 s').1 ↔ LooksAside contentType body ops) := by
  obtain ⟨m, m', hm, hm', hagree, -⟩ := run_agree ops (.refl (newMessage contentType body))
  refine ⟨m, m', hm, hm', ?_, ?_⟩
  · intro h order
    have hheaders := (looksAside_iff hm hm').mp h
    refine ⟨⟨order.entries, hheaders ▸ order.complete⟩, ?_⟩
    rw [marshalV2, marshalV2, marshalWithVersion, marshalWithVersion, hagree.contentType,
      hagree.sequence, hagree.body]
  · intro order order' s s' hfit hfit' hs hs'
    have hframe : ∀ (o : Outgoing), o.frame = o.frame ++ [] := fun o => (List.append_nil _).symm
    obtain ⟨_, -, hread⟩ := readV2_frame (o := ⟨m, order⟩) hfit (hs.trans (hframe ⟨m, order⟩))
    obtain ⟨_, -, hread'⟩ := readV2_frame (o := ⟨m', order'⟩) hfit' (hs'.trans (hframe ⟨m', order'⟩))
    rw [hread, hread', looksAside_iff hm hm']
    show (Except.ok m.putReplyFor.headers : Except WireError Headers) = .ok m'.putReplyFor.headers ↔ _
    rw [Except.ok.injEq]

/-- A message that was looked at before its reply target was put. -/
def lookedAt : Outgoing where
  msg := { newMessage 1 [] with
    cachedReplyFor := some (-1), headers := Finmap.insert replyForHeader [7, 0, 0, 0] ∅ }
  order := ⟨[⟨replyForHeader, [255, 255, 255, 255]⟩], by decide⟩

/-- The same message, not looked at. -/
def notLookedAt : Outgoing where
  msg := { newMessage 1 [] with headers := Finmap.insert replyForHeader [7, 0, 0, 0] ∅ }
  order := ⟨[⟨replyForHeader, [7, 0, 0, 0]⟩], by decide⟩

/-- The first goes out as no reply. -/
theorem looking_drops_target :
    let ops : List MessageOp := [.observe .isReply, .put replyForHeader (.uint32 7)]
    run (newMessage 1 []) ops = .ok lookedAt.msg ∧
      run (newMessage 1 []) (unobserved ops) = .ok notLookedAt.msg ∧
      (headersOf (readV2 (⟨lookedAt.frame, fun _ => (20, false)⟩ : Chopped)).1).map
        (·.lookup replyForHeader) = .ok (some [255, 255, 255, 255]) ∧
      (headersOf (readV2 (⟨notLookedAt.frame, fun _ => (20, false)⟩ : Chopped)).1).map
        (·.lookup replyForHeader) = .ok (some [7, 0, 0, 0]) := by
  obtain ⟨_, -, hread⟩ := readV2_frame (s := (⟨lookedAt.frame, fun _ => (20, false)⟩ : Chopped))
    (o := lookedAt) (by decide) (List.append_nil _).symm
  obtain ⟨_, -, hread'⟩ := readV2_frame (s := (⟨notLookedAt.frame, fun _ => (20, false)⟩ : Chopped))
    (o := notLookedAt) (by decide) (List.append_nil _).symm
  have hlookup : lookedAt.received.headers.lookup replyForHeader = some [255, 255, 255, 255] := by
    decide
  have hlookup' : notLookedAt.received.headers.lookup replyForHeader = some [7, 0, 0, 0] := by decide
  refine ⟨rfl, rfl, ?_, ?_⟩
  · rw [hread]
    exact congrArg Except.ok hlookup
  · rw [hread']
    exact congrArg Except.ok hlookup'

/-! ### The reply target on both sides -/

/-- What can be done to a message, marshalling included. -/
inductive MessageCall
  | op (o : MessageOp)
  | marshalV2

namespace MessageCall

/-- Marshalling leaves the cached target in the headers. -/
def apply (m : Message) : MessageCall → Encoded Message
  | .op o => MessageOp.apply m o
  | .marshalV2 => .ok m.putReplyFor

def run (m : Message) (calls : List MessageCall) : Encoded Message := calls.foldlM apply m

theorem apply_ok (m : Message) (call : MessageCall) : ∃ n, apply m call = .ok n := by
  cases call with
  | marshalV2 => exact ⟨_, rfl⟩
  | op o =>
    cases o with
    | put key value =>
      obtain ⟨b, hb⟩ := value.encode_ok
      exact ⟨_, by rw [apply, MessageOp.apply, Message.putHeader, hb]; rfl⟩
    | replyTo o => exact ⟨_, rfl⟩
    | observe o => exact ⟨_, rfl⟩

theorem run_ok : ∀ (calls : List MessageCall) (m : Message), ∃ n, run m calls = .ok n := by
  intro calls
  induction calls with
  | nil => exact fun m => ⟨m, rfl⟩
  | cons call calls ih =>
    intro m
    obtain ⟨k, hk⟩ := apply_ok m call
    obtain ⟨n, hn⟩ := ih k
    exact ⟨n, by rw [run, List.foldlM_cons, hk]; exact hn⟩

end MessageCall

/-- A message reports the target that is in its headers when it is marshalled. -/
theorem replyFor_putReplyFor (m : Message) {m' : Message} (hcache : m'.cachedReplyFor = none)
    (hheaders : m'.headers = m.putReplyFor.headers) : m'.replyFor = m.replyFor := by
  cases hc : m.cachedReplyFor with
  | some v =>
    have hlookup : m'.headers.lookup replyForHeader = some (putInt32 v) := by
      rw [hheaders, lookup_putReplyFor, hc]
      exact if_pos rfl
    rw [MessageHeader.replyFor_of_header hcache hlookup]
    simp [MessageHeader.replyFor, MessageHeader.cacheReplyFor, hc]
  | none =>
    have hsame : m'.headers = m.headers := by
      rw [hheaders]
      simp only [Message.putReplyFor, hc]
    simp only [MessageHeader.replyFor, MessageHeader.cacheReplyFor, hc, hcache, hsame]

section

variable {σ : Type} [ByteSource σ]

/-- What is decoded has the headers that were marshalled, if the length of the header block fits its
field; and it has nothing cached. -/
theorem readV2_headers {m m' : Message} {order : Ranging.Order m.putReplyFor.headers} {s : σ}
    {rest : Bytes} (hs : remaining s = marshalV2 m order ++ rest)
    (hfit : (marshalHeaders order.entries).length < 2 ^ 32) (hread : (readV2 s).1 = .ok m') :
    m'.cachedReplyFor = none ∧ m'.headers = m.putReplyFor.headers := by
  rw [marshalV2_eq, List.append_assoc] at hs
  have hagrees := readV2_section_agrees (length_messageSection _ _ _ _)
    (slice_messageSection_magic _ _ _ _) hs
  have hdecode := hagrees.ok hread
  simp only [decodeData, declaredHeaders, slice_messageSection_headersLength,
    toNat_uint32_putInt32, Nat.mod_eq_of_lt hfit, List.append_assoc, List.take_left] at hdecode
  split at hdecode
  · cases hdecode
  · next hbig =>
    split at hdecode
    · cases hdecode
    · rw [unmarshalHeaders_marshalHeaders order (by omega)] at hdecode
      have hm : _ = m' := congrArg Prod.fst (Except.ok.inj hdecode)
      subst hm
      exact ⟨rfl, rfl⟩

/-- **Sender and receiver agree on the reply target**: for every message that can be reached, if its
header block is shorter than 2^32 bytes, what is decoded from it reports what it reports.  And it is
decoded, unless its data section is too large. -/
theorem replyTarget_agrees (contentType : Int32) (body : Bytes) (calls : List MessageCall) :
    ∃ m, MessageCall.run (newMessage contentType body) calls = .ok m ∧
      ∀ (order : Ranging.Order m.putReplyFor.headers) (s : σ) (rest : Bytes),
        remaining s = marshalV2 m order ++ rest →
        (marshalHeaders order.entries).length < 2 ^ 32 →
        (∀ m', (readV2 s).1 = .ok m' → m'.replyFor = m.replyFor ∧ m'.isReply = m.isReply ∧
          ∀ sequence, m'.isReplyingTo sequence = m.isReplyingTo sequence) ∧
        ((Outgoing.mk m order).dataLen ≤ maxInt32 → ∃ m', (readV2 s).1 = .ok m') := by
  obtain ⟨m, hm⟩ := MessageCall.run_ok calls (newMessage contentType body)
  refine ⟨m, hm, fun order s rest hs hfit => ⟨fun m' hread => ?_, fun hlen => ?_⟩⟩
  · obtain ⟨hcache, hheaders⟩ := readV2_headers hs hfit hread
    have hreply := replyFor_putReplyFor m hcache hheaders
    simp only [MessageHeader.isReply, MessageHeader.isReplyingTo, hreply, implies_true, and_self]
  · obtain ⟨_, -, hread⟩ := readV2_frame (o := ⟨m, order⟩) hlen hs
    exact ⟨_, by rw [hread]⟩

end

/-- A target that was put as a string, with more bytes behind it. -/
def longTarget (tail : Bytes) : Outgoing where
  msg := { newMessage 1 [] with headers := Finmap.insert replyForHeader (putInt32 7 ++ tail) ∅ }
  order := ⟨[⟨replyForHeader, putInt32 7 ++ tail⟩], rfl⟩

/-- The sender finds no target of four bytes. -/
theorem longTarget_replyFor {tail : Bytes} (htail : tail.length = 2 ^ 32) :
    (longTarget tail).msg.replyFor = notAReply := by
  have hlookup : (longTarget tail).msg.headers.lookup replyForHeader = some (putInt32 7 ++ tail) :=
    Finmap.lookup_insert _
  have hwidth : (putInt32 7 ++ tail).length ≠ replyForHeaderLen := by
    rw [List.length_append, length_putInt32, htail]
    decide
  have hcache : (longTarget tail).msg.cachedReplyFor = none := rfl
  simp only [MessageHeader.replyFor, MessageHeader.cacheReplyFor, hcache, hlookup, if_neg hwidth,
    Option.getD_some]

/-- The order of the one header that the receiver sees. -/
def shortOrder : Ranging.Order (Finmap.insert replyForHeader (putInt32 7) (∅ : Headers)) :=
  ⟨[⟨replyForHeader, putInt32 7⟩], rfl⟩

/-- Both lengths lose 2^32: what is left is a header with the target alone. -/
theorem longTarget_frame {tail : Bytes} (htail : tail.length = 2 ^ 32) :
    (longTarget tail).frame =
      messageSection 1 (-1) (Int32.ofNat 12) 0 ++ (marshalHeaders shortOrder.entries ++ tail) := by
  have hvalue : Int32.ofNat (putInt32 7 ++ tail).length = Int32.ofNat (putInt32 7).length := by
    rw [List.length_append, length_putInt32, htail]
    decide
  have hblock : marshalHeaders (longTarget tail).order.entries =
      marshalHeaders shortOrder.entries ++ tail := by
    simp only [longTarget, shortOrder, marshalHeaders, hvalue, List.append_assoc, List.append_nil]
  have hlength : Int32.ofNat (marshalHeaders shortOrder.entries ++ tail).length = Int32.ofNat 12 := by
    rw [List.length_append, htail]
    decide
  rw [Outgoing.frame, marshalV2_eq, hblock, hlength]
  simp only [longTarget, newMessage, List.append_nil]
  rfl

theorem longTarget_read {tail : Bytes} (htail : tail.length = 2 ^ 32) {s : Chopped}
    (hs : remaining s = (longTarget tail).frame) :
    ∃ m', (readV2 s).1 = .ok m' ∧ m'.replyFor = 7 := by
  rw [longTarget_frame htail] at hs
  have hagrees := readV2_section_agrees (length_messageSection _ _ _ _)
    (slice_messageSection_magic _ _ _ _) hs
  have hheaders : (declaredHeaders (messageSection 1 (-1) (Int32.ofNat 12) 0)).toNat = 12 := by
    decide
  have hbody : (declaredBody (messageSection 1 (-1) (Int32.ofNat 12) 0)).toNat = 0 := by decide
  have htake : (marshalHeaders shortOrder.entries ++ tail).take 12 = marshalHeaders shortOrder.entries :=
    List.take_left' rfl
  have hlong : ¬ (marshalHeaders shortOrder.entries ++ tail).length < 12 + 0 := by
    rw [List.length_append, htail]
    decide
  rw [decodeData] at hagrees
  simp only [hheaders, hbody, htake, hlong, if_false,
    unmarshalHeaders_marshalHeaders shortOrder (by decide)] at hagrees
  rw [if_neg (by decide)] at hagrees
  exact ⟨_, hagrees.1, MessageHeader.replyFor_of_header rfl (Finmap.lookup_insert _)⟩

/-- The receiver sees a reply where the sender sees none. -/
theorem replyTarget_wraps :
    let tail := List.replicate (2 ^ 32) 0
    MessageCall.run (newMessage 1 []) [.op (.put replyForHeader (.string (putInt32 7 ++ tail)))] =
        .ok (longTarget tail).msg ∧
      (longTarget tail).msg.replyFor = -1 ∧
      ∃ m', (readV2 (⟨(longTarget tail).frame, fun _ => (20, false)⟩ : Chopped)).1 = .ok m' ∧
        m'.replyFor = 7 := by
  intro tail
  have htail : tail.length = 2 ^ 32 := List.length_replicate
  clear_value tail
  exact ⟨rfl, longTarget_replyFor htail, longTarget_read htail rfl⟩

end ZitiChannel
