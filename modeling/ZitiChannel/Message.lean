import Mathlib.Data.Finmap
import ZitiChannel.Lib.LittleEndian

/-!
# Messages and their headers

A message is a content type, a sequence number, a map of headers and a body.
Whether it is a reply is said in two places: the header `ReplyForHeader`, which
travels, and a cached value beside it, which the accessors fill on first use and
which marshalling writes back into the header.  The cache's `-1` stands for "not
a reply".

## Main definitions

* `Headers`, with the `put`/`get` accessors and `copy`.
* `MessageHeader`, `Message`, `newMessage`, `Message.replyTo`.
* `MessageHeader.cacheReplyFor`, `MessageHeader.replyFor`, `MessageHeader.isReply`.

The source is `message.go`.
-/

namespace ZitiChannel

open ByteStream

/-! ### Header keys -/

/-- The header that carries a requested or assigned connection id. -/
def connectionIdHeader : Int32 := 0
/-- The header that carries the sequence a message replies to. -/
def replyForHeader : Int32 := 1
/-- The header that says whether a result is a success. -/
def resultSuccessHeader : Int32 := 2
/-- The header that carries the time a heartbeat was sent. -/
def heartbeatHeader : Int32 := 5
/-- The header that carries the time of the heartbeat that is answered. -/
def heartbeatResponseHeader : Int32 := 6
def typeHeader : Int32 := 7
/-- The header that carries the identity token of a listener. -/
def idHeader : Int32 := 8
/-- The header that marks an underlay as part of a group. -/
def isGroupedHeader : Int32 := 9
/-- The header that carries the secret a group's underlays share. -/
def groupSecretHeader : Int32 := 10
/-- The header that marks the underlay that creates its group. -/
def isFirstGroupConnection : Int32 := 11
/-- The header that carries the class of a refusal. -/
def helloRejectClassHeader : Int32 := 13
/-- The one header that a reply copies from its request. -/
def reflectedHeader : Int32 := 128

/-- The wire width of `replyForHeader`; a value of another width reads as not a
reply. -/
def replyForHeaderLen : ℕ := 4

/-! ### Header maps -/

/-- A string: any bytes, not necessarily well-formed text. -/
abbrev GoString := Bytes

def str (s : String) : GoString := s.toUTF8.data.toList

abbrev Headers := Finmap fun _ : Int32 => Bytes

namespace Headers

def putUint32Header (h : Headers) (key : Int32) (value : UInt32) : Headers :=
  Finmap.insert key (putUint32 value) h

/-- Read a 32-bit value; a value of another width is not found. -/
def getUint32Header (h : Headers) (key : Int32) : UInt32 × Bool :=
  match h.lookup key with
  | none => (0, false)
  | some encoded => if encoded.length ≠ 4 then (0, false) else (uint32 encoded, true)

def putUint16Header (h : Headers) (key : Int32) (value : UInt16) : Headers :=
  Finmap.insert key (putUint16 value) h

/-- Read a 16-bit value; a value of another width is not found. -/
def getUint16Header (h : Headers) (key : Int32) : UInt16 × Bool :=
  match h.lookup key with
  | none => (0, false)
  | some encoded => if encoded.length ≠ 2 then (0, false) else (uint16 encoded, true)

def putUint64Header (h : Headers) (key : Int32) (value : UInt64) : Headers :=
  Finmap.insert key (putUint64 value) h

/-- Read a 64-bit value; a value of another width is found, as zero. -/
def getUint64Header (h : Headers) (key : Int32) : UInt64 × Bool :=
  match h.lookup key with
  | none => (0, false)
  | some encoded => if encoded.length ≠ 8 then (0, true) else (uint64 encoded, true)

/-- Store a flag as one byte. -/
def putBoolHeader (h : Headers) (key : Int32) (value : Bool) : Headers :=
  Finmap.insert key [if value then 1 else 0] h

/-- Read a flag: true only when the first byte is one. -/
def getBoolHeader (h : Headers) (key : Int32) : Bool × Bool :=
  match h.lookup key with
  | none => (false, false)
  | some encoded => (decide (encoded.head? = some 1), true)

def putStringHeader (h : Headers) (key : Int32) (value : GoString) : Headers :=
  Finmap.insert key value h

def getStringHeader (h : Headers) (key : Int32) : GoString × Bool :=
  match h.lookup key with
  | none => ([], false)
  | some encoded => (encoded, true)

/-- Store all headers of `src`, over what is there. -/
def copy (h src : Headers) : Headers := src ∪ h

/-- The bytes under a key as indexing the map gives them: an absent key reads as
no bytes. -/
def index (h : Headers) (key : Int32) : Bytes := (h.lookup key).getD []

@[simp] theorem index_insert_self (h : Headers) (key : Int32) (value : Bytes) :
    Headers.index (Finmap.insert key value h) key = value := by
  rw [index, Finmap.lookup_insert, Option.getD_some]

theorem index_insert_of_ne {h : Headers} {key key' : Int32} (hne : key ≠ key') (value : Bytes) :
    Headers.index (Finmap.insert key' value h) key = h.index key := by
  rw [index, Finmap.lookup_insert_of_ne _ hne, index]

theorem lookup_copy (h src : Headers) (key : Int32) :
    (h.copy src).lookup key = (src.lookup key).or (h.lookup key) := by
  unfold copy
  by_cases hk : key ∈ src
  · obtain ⟨v, hv⟩ := Finmap.mem_iff.mp hk
    rw [Finmap.lookup_union_left hk, hv, Option.some_or]
  · rw [Finmap.lookup_union_right hk, Finmap.lookup_eq_none.mpr hk, Option.none_or]

theorem getStringHeader_fst (h : Headers) (key : Int32) :
    (h.getStringHeader key).1 = h.index key := by
  unfold getStringHeader index
  cases h.lookup key <;> rfl

theorem getBoolHeader_fst (h : Headers) (key : Int32) :
    (h.getBoolHeader key).1 = decide ((h.index key).head? = some 1) := by
  unfold getBoolHeader index
  cases h.lookup key <;> simp

end Headers

/-! ### Messages -/

/-- The metadata of a message. -/
structure MessageHeader where
  contentType : Int32
  /-- Its place in the sender's order. -/
  sequence : Int32
  /-- The cached reply target: the source's nullable `replyFor`. -/
  cachedReplyFor : Option Int32
  headers : Headers
  deriving DecidableEq

structure Message extends MessageHeader where
  body : Bytes
  deriving DecidableEq

/-- What "not a reply" is cached as. -/
def notAReply : Int32 := -1

namespace MessageHeader

/-- Fill the cache from the header, unless it is filled already. -/
def cacheReplyFor (h : MessageHeader) : MessageHeader :=
  match h.cachedReplyFor with
  | some _ => h
  | none =>
      let val := match h.headers.lookup replyForHeader with
        | some replyFor => if replyFor.length = replyForHeaderLen then int32 replyFor else notAReply
        | none => notAReply
      { h with cachedReplyFor := some val }

/-- The sequence this message replies to, `-1` if it is not a reply. -/
def replyFor (h : MessageHeader) : Int32 := h.cacheReplyFor.cachedReplyFor.getD notAReply

def isReply (h : MessageHeader) : Bool := decide (h.replyFor ≠ notAReply)

def isReplyingTo (h : MessageHeader) (sequence : Int32) : Bool := decide (h.replyFor = sequence)

/-- With the cache empty, four bytes under the header decide it. -/
theorem replyFor_of_header {h : MessageHeader} (hc : h.cachedReplyFor = none) {v : Int32}
    (hl : h.headers.lookup replyForHeader = some (putInt32 v)) : h.replyFor = v := by
  simp [replyFor, cacheReplyFor, hc, hl, replyForHeaderLen]

end MessageHeader

/-- A message with no headers, not yet sequenced. -/
def newMessage (contentType : Int32) (body : Bytes) : Message where
  contentType := contentType
  sequence := -1
  cachedReplyFor := none
  headers := ∅
  body := body

namespace Message

def setSequence (m : Message) (seq : Int32) : Message := { m with sequence := seq }

/-- Make `m` the reply to `o`. -/
def replyTo (m o : Message) : Message :=
  { m with
    cachedReplyFor := some o.sequence
    headers := match o.headers.lookup reflectedHeader with
      | some value => Finmap.insert reflectedHeader value m.headers
      | none => m.headers }

@[simp] theorem replyTo_cachedReplyFor (m o : Message) :
    (m.replyTo o).cachedReplyFor = some o.sequence := rfl

end Message

end ZitiChannel
