import ZitiChannel.Message

/-!
# Words in headers

A header holds bytes, and three pairs of accessors store and read words of 16, 32 and 64 bits.  A
getter also tells whether it found a word.  Those who ask take that for the truth: the heartbeater
takes what it finds for the time of a heartbeat, and the latency probe for the time that its probe
was sent.  The bytes come from the peer and may be of any length.

The getter for 64 bits differs from the other two.  If the bytes are of another length it says that
it found a word, and that it is zero.

## Main definitions

* `Headers.Recognises` — what a getter is to make of the bytes under a key.
* `Heartbeater.rxHeartbeat`, `Heartbeater.rxResponse`, `LatencyProbe.handleReceive` — those who ask.
* `TrustsWords` — they act on words only.

## Main results

* `recognises_uint16`, `recognises_uint32`, `recognises_uint64_iff` — the three getters.
* `fixedWidth_iff` — **the accessors are true to each other, and those who ask act on words only,
  exactly if what is stored has eight bytes.**

The sources are `message.go`, `heartbeater.go` and `latency/latency.go`.
-/

namespace ZitiChannel

open ByteStream

/-! ### Getters and putters -/

namespace Headers

/-- The getter recognises exactly what the putter writes, under the given key. -/
structure Recognises {α : Type} (width : ℕ) (put : Headers → Int32 → α → Headers)
    (get : Headers → Int32 → α × Bool) (h : Headers) (key : Int32) : Prop where
  found_iff : (get h key).2 = true ↔ ∃ b, h.lookup key = some b ∧ b.length = width
  /-- Storing what was found changes nothing. -/
  put_get : (get h key).2 = true → (put h key (get h key).1).lookup key = h.lookup key
  get_put : ∀ value, get (put h key value) key = (value, true)
  /-- Other keys keep their bytes. -/
  put_other : ∀ value key', key' ≠ key → (put h key value).lookup key' = h.lookup key'

variable (h : Headers) (key : Int32)

/-- A getter that finds values of its width only. -/
def getWord {α : Type} (width : ℕ) (decode : Bytes → α) (zero : α) (h : Headers) (key : Int32) :
    α × Bool :=
  match h.lookup key with
  | none => (zero, false)
  | some encoded => if encoded.length ≠ width then (zero, false) else (decode encoded, true)

theorem recognises_getWord {α : Type} {width : ℕ} {encode : α → Bytes} {decode : Bytes → α}
    (hlength : ∀ v, (encode v).length = width) (hdecode : ∀ v, decode (encode v) = v)
    (hencode : ∀ b : Bytes, b.length = width → encode (decode b) = b) (zero : α) :
    Recognises width (fun h key value => Finmap.insert key (encode value) h)
      (getWord width decode zero) h key where
  found_iff := by
    unfold getWord
    cases h.lookup key with
    | none => simp
    | some b => by_cases hb : b.length = width <;> simp [hb]
  put_get := by
    unfold getWord
    cases hl : h.lookup key with
    | none => simp
    | some b =>
      by_cases hb : b.length = width
      · simp [hb, hencode b hb]
      · simp [hb]
  get_put value := by simp [getWord, hlength, hdecode]
  put_other value key' hne := Finmap.lookup_insert_of_ne _ hne

theorem recognises_uint16 : Recognises 2 putUint16Header getUint16Header h key :=
  recognises_getWord h key length_putUint16 uint16_putUint16 (fun _ => putUint16_uint16) 0

theorem recognises_uint32 : Recognises 4 putUint32Header getUint32Header h key :=
  recognises_getWord h key length_putUint32 uint32_putUint32 (fun _ => putUint32_uint32) 0

theorem getUint64Header_found : (h.getUint64Header key).2 = (h.lookup key).isSome := by
  unfold getUint64Header
  cases h.lookup key with
  | none => rfl
  | some b => by_cases hb : b.length = 8 <;> simp [hb]

variable {h key}

/-- Of eight bytes, the getter returns the word. -/
theorem getUint64Header_of_length {b : Bytes} (hl : h.lookup key = some b) (hb : b.length = 8) :
    h.getUint64Header key = (uint64 b, true) := by
  simp [getUint64Header, hl, hb]

/-- **The getter for 64 bits** recognises words unless there is something else. -/
theorem recognises_uint64_iff :
    Recognises 8 putUint64Header getUint64Header h key ↔
      ∀ b, h.lookup key = some b → b.length = 8 := by
  constructor
  · intro hrec b hl
    have hfound : (h.getUint64Header key).2 = true := by
      rw [getUint64Header_found, hl]
      rfl
    obtain ⟨b', hl', hb'⟩ := hrec.found_iff.mp hfound
    rw [hl] at hl'
    cases hl'
    exact hb'
  · intro hwidth
    refine ⟨?_, ?_, ?_, ?_⟩
    · rw [getUint64Header_found, Option.isSome_iff_exists]
      constructor
      · intro ⟨b, hl⟩
        exact ⟨b, hl, hwidth b hl⟩
      · intro ⟨b, hl, _⟩
        exact ⟨b, hl⟩
    · intro hfound
      rw [getUint64Header_found, Option.isSome_iff_exists] at hfound
      obtain ⟨b, hl⟩ := hfound
      rw [getUint64Header_of_length hl (hwidth b hl), putUint64Header, Finmap.lookup_insert, hl,
        putUint64_uint64 (hwidth b hl)]
    · intro value
      simp [getUint64Header, putUint64Header]
    · intro value key' hne
      exact Finmap.lookup_insert_of_ne _ hne

end Headers

/-! ### Those who ask -/

/-- What the heartbeater's loop is told. -/
inductive HeartbeatEvent
  | tx (ts : Int64)
  | rx (ts : Int64)
  | respTx (ts : Int64)
  | respRx (ts : Int64)
  /-- Some time has passed since a heartbeat was received. -/
  | handleUnresponded
  deriving DecidableEq, Repr

namespace Heartbeater

/-- The event for the time in a header of a received message. -/
def rxTime (key : Int32) (event : Int64 → HeartbeatEvent) (m : Message) : Option HeartbeatEvent :=
  match m.headers.getUint64Header key with
  | (val, true) => some (event val.toInt64)
  | (_, false) => none

/-- The event for the heartbeat of a received message. -/
def rxHeartbeat : Message → Option HeartbeatEvent := rxTime heartbeatHeader .rx

/-- The event for the answer to a heartbeat of a received message. -/
def rxResponse : Message → Option HeartbeatEvent := rxTime heartbeatResponseHeader .respRx

end Heartbeater

namespace LatencyProbe

/-- The header that carries the time a probe was sent. -/
def probeTime : Int32 := reflectedHeader

/-- The latency that the handler is given for an answer received at `now`. -/
def handleReceive (now : Int64) (m : Message) : Option Int64 :=
  match m.headers.getUint64Header probeTime with
  | (sentTime, true) => some (now - sentTime.toInt64)
  | (_, false) => none

end LatencyProbe

/-- Of the bytes under the given key, those who ask act on the eight bytes of a word only. -/
structure TrustsWords (m : Message) (key : Int32) : Prop where
  heartbeat : key = heartbeatHeader → ∀ ts, Heartbeater.rxHeartbeat m = some (.rx ts) →
    m.headers.lookup key = some (putUint64 ts.toUInt64)
  response : key = heartbeatResponseHeader → ∀ ts, Heartbeater.rxResponse m = some (.respRx ts) →
    m.headers.lookup key = some (putUint64 ts.toUInt64)
  latency : key = LatencyProbe.probeTime → ∀ now latency,
    LatencyProbe.handleReceive now m = some latency →
      ∃ sentTime, m.headers.lookup key = some (putUint64 sentTime) ∧
        latency = now - sentTime.toInt64

/-- What the getter finds is there, if what is there has eight bytes. -/
theorem lookup_of_getUint64Header {h : Headers} {key : Int32}
    (hwidth : ∀ b, h.lookup key = some b → b.length = 8) {val : UInt64}
    (hget : h.getUint64Header key = (val, true)) : h.lookup key = some (putUint64 val) := by
  have hrec := Headers.recognises_uint64_iff.mpr hwidth
  have hput := hrec.put_get (by rw [hget])
  rw [hget, Headers.putUint64Header, Finmap.lookup_insert] at hput
  exact hput.symm

/-- The time of an event is there, if what is there has eight bytes. -/
theorem lookup_of_rxTime {m : Message} {key : Int32}
    (hwidth : ∀ b, m.headers.lookup key = some b → b.length = 8) {event : Int64 → HeartbeatEvent}
    {e : HeartbeatEvent} (h : Heartbeater.rxTime key event m = some e) :
    ∃ ts, e = event ts ∧ m.headers.lookup key = some (putUint64 ts.toUInt64) := by
  unfold Heartbeater.rxTime at h
  split at h
  · next val hget =>
    cases h
    refine ⟨val.toInt64, rfl, ?_⟩
    rw [lookup_of_getUint64Header hwidth hget, UInt64.toUInt64_toInt64]
  · cases h

theorem trustsWords_of_width {m : Message} {key : Int32}
    (hwidth : ∀ b, m.headers.lookup key = some b → b.length = 8) : TrustsWords m key where
  heartbeat := by
    intro hkey ts hrx
    subst hkey
    obtain ⟨ts', hts', hlookup⟩ := lookup_of_rxTime hwidth hrx
    cases hts'
    exact hlookup
  response := by
    intro hkey ts hrx
    subst hkey
    obtain ⟨ts', hts', hlookup⟩ := lookup_of_rxTime hwidth hrx
    cases hts'
    exact hlookup
  latency := by
    intro hkey now latency hrx
    subst hkey
    unfold LatencyProbe.handleReceive at hrx
    split at hrx
    · next val hget =>
      cases hrx
      exact ⟨val, lookup_of_getUint64Header hwidth hget, rfl⟩
    · cases hrx

/-- **Words in headers.**  For every message and key: each getter finds exactly the values of its
width, returns the number whose putter writes them, and returns what its putter has stored, with no
other key touched; and the heartbeater and the latency probe act on words only.  This holds exactly
if the key is absent or holds eight bytes. -/
theorem fixedWidth_iff (m : Message) (key : Int32) :
    Headers.Recognises 2 Headers.putUint16Header Headers.getUint16Header m.headers key ∧
      Headers.Recognises 4 Headers.putUint32Header Headers.getUint32Header m.headers key ∧
      Headers.Recognises 8 Headers.putUint64Header Headers.getUint64Header m.headers key ∧
      TrustsWords m key ↔
    ∀ b, m.headers.lookup key = some b → b.length = 8 := by
  constructor
  · intro ⟨_, _, hrec, _⟩
    exact Headers.recognises_uint64_iff.mp hrec
  · intro hwidth
    exact ⟨Headers.recognises_uint16 _ key, Headers.recognises_uint32 _ key,
      Headers.recognises_uint64_iff.mpr hwidth, trustsWords_of_width hwidth⟩

/-- A message with one byte where the time of a heartbeat belongs. -/
def shortHeartbeat : Message :=
  { newMessage 5 [] with headers := Finmap.insert heartbeatHeader [7] ∅ }

/-- The getter finds zero in it, and the heartbeater takes that for the time of a heartbeat. -/
theorem shortHeartbeat_found :
    shortHeartbeat.headers.lookup heartbeatHeader = some [7] ∧
      shortHeartbeat.headers.getUint64Header heartbeatHeader = (0, true) ∧
      Heartbeater.rxHeartbeat shortHeartbeat = some (.rx 0) ∧
      ¬ Headers.Recognises 8 Headers.putUint64Header Headers.getUint64Header shortHeartbeat.headers
        heartbeatHeader ∧
      ¬ TrustsWords shortHeartbeat heartbeatHeader := by
  refine ⟨by decide, by decide, by decide, ?_, ?_⟩
  · intro hrec
    have hwidth := Headers.recognises_uint64_iff.mp hrec [7] (by decide)
    exact absurd hwidth (by decide)
  · intro htrust
    have hbytes := htrust.heartbeat rfl 0 (by decide)
    exact absurd hbytes (by decide)

end ZitiChannel
