import ZitiChannel.Lib.Ranging
import ZitiChannel.Lib.Reader
import ZitiChannel.Message

/-!
# The V2 wire format

A frame is a message section of twenty bytes (the magic, the content type, the
sequence, the length of the headers and the length of the body) and a data
section with the headers and the body.  A header is its key, the length of its
value, and the value.

The reader does not wait for a whole message section before it looks at the
magic: a version-negotiation response is shorter than a frame.  It therefore asks
for at least the magic and at most the message section, and tops the section up
once it knows that it is reading a frame.

Marshalling ranges over a map, so the order of the headers is not determined: it
is the argument `order`, and a result holds for every order.

## Main definitions

* `marshalHeaders`, `marshalWithVersion`, `marshalV2` — encoding.
* `unmarshalHeaders`, `unmarshalV2`, `readV2` — decoding, from any byte source.
* `readHello` — the reader of the first message, which bounds its size.
* `readUnknownVersionResponse` — the answer of a peer that lacks this version.

The source is `message.go`.
-/

namespace ZitiChannel

open ByteStream

/-! ### Constants and errors -/

/-- How many bytes of magic start a frame. -/
def magicLength : ℕ := 4
/-- The length of an encoded version number. -/
def versionLen : ℕ := 4
def dataSectionV2 : ℕ := 20
/-- The greatest number of versions a peer may list. -/
def maxSupportedVersionCount : ℕ := 64
def maxInt32 : ℕ := 2147483647

/-- The magic of a version-negotiation response. -/
def magicUnknownVersion : Bytes := [0x03, 0x06, 0x09, 0x0a]
/-- The magic of a frame. -/
def magicV2 : Bytes := [0x03, 0x06, 0x09, 0x0c]

/-- What reading a message fails with. -/
inductive WireError
  | read (err : ReadErr)
  /-- The bytes are neither a frame nor a version response. -/
  | badMagicNumber
  /-- The peer lists the versions it supports. -/
  | unsupportedVersion (supportedVersions : List UInt32)
  /-- An error that is only its text. -/
  | text (msg : String)
  deriving DecidableEq, Repr

/-! ### Encoding -/

/-- One header: its key and its value. -/
abbrev HeaderEntry := Sigma fun _ : Int32 => Bytes

/-- The headers in the order they are visited. -/
def marshalHeaders : List HeaderEntry → Bytes
  | [] => []
  | ⟨k, v⟩ :: rest => putInt32 k ++ putInt32 (Int32.ofNat v.length) ++ v ++ marshalHeaders rest

/-- What marshalling does to the message first: a reply target that is cached is
written into the headers. -/
def Message.putReplyFor (m : Message) : Message :=
  match m.cachedReplyFor with
  | some replyFor =>
      { m with headers := m.headers.putUint32Header replyForHeader replyFor.toUInt32 }
  | none => m

/-- The encoding of a message under a magic.  Writes to a memory buffer do not
fail, so there is always a result. -/
def marshalWithVersion (m : Message) (version : Bytes)
    (order : Ranging.Order m.putReplyFor.headers) : Bytes :=
  let headersData := marshalHeaders order.entries
  version ++ putInt32 m.contentType ++ putInt32 m.sequence ++
    putInt32 (Int32.ofNat headersData.length) ++ putInt32 (Int32.ofNat m.body.length) ++
    headersData ++ m.body

def marshalV2 (m : Message) (order : Ranging.Order m.putReplyFor.headers) : Bytes :=
  marshalWithVersion m magicV2 order

/-! ### Decoding the headers -/

/-- The slice expression `b[lo:hi]`. -/
def slice (b : Bytes) (lo hi : ℕ) : Bytes := (b.take hi).drop lo

/-- The loop of `unmarshalHeaders`, at the cursor `i` with the map `out`. -/
def unmarshalHeadersLoop (headerData : Bytes) (i : ℕ) (out : Headers) : Except WireError Headers :=
  let len := headerData.length
  if i < len then
    if i + 8 > len then
      .error (.text s!"short header meta-data ({i + 8} >= {len})")
    else
      let key := int32 (slice headerData i (i + 4))
      let length := uint32 (slice headerData (i + 4) (i + 8))
      let stop := i + 8 + length.toNat
      if stop > len then .error (.text s!"short header data ({stop} >= {len})")
      else
        let data := slice headerData (i + 8) (i + 8 + length.toNat)
        unmarshalHeadersLoop headerData (i + 8 + length.toNat) (Finmap.insert key data out)
  else .ok out
termination_by headerData.length - i

/-- The header map of a header block. -/
def unmarshalHeaders (headerData : Bytes) : Except WireError Headers :=
  if headerData.length > 0 ∧ headerData.length < 8 then .error (.text "truncated header data")
  else unmarshalHeadersLoop headerData 0 ∅

/-! ### Reading a message -/

section

variable {σ : Type} [ByteSource σ]

/-- The data section, once the message section is there. -/
def unmarshalV2 (peer : σ) (messageSectionData : Bytes) (headersLength bodyLength : UInt32) :
    Except WireError Message × σ :=
  let dataSectionLen := headersLength.toNat + bodyLength.toNat
  if dataSectionLen > maxInt32 then
    (.error (.text
      s!"declared data section of {dataSectionLen} bytes exceeds the maximum of {maxInt32}"), peer)
  else
    match readFull peer dataSectionLen with
    | ⟨_, some err, peer⟩ => (.error (.read err), peer)
    | ⟨dataSectionData, none, peer⟩ =>
        if dataSectionData.length ≠ dataSectionLen then (.error (.text "short read"), peer)
        else if messageSectionData.length < dataSectionV2 then
          (.error (.text "short data stream"), peer)
        else if slice messageSectionData 0 magicLength ≠ magicV2 then
          (.error (.text "magic mismatch"), peer)
        else
          let headers :=
            if headersLength > 0 then
              unmarshalHeaders (slice dataSectionData 0 headersLength.toNat)
            else .ok ∅
          match headers with
          | .error err => (.error err, peer)
          | .ok headers =>
              (.ok {
                contentType := int32 (slice messageSectionData 4 8)
                sequence := int32 (slice messageSectionData 8 12)
                cachedReplyFor := none
                headers := headers
                body := dataSectionData.drop headersLength.toNat }, peer)

/-- The versions in a buffer of encoded versions. -/
def decodeVersions : Bytes → List UInt32
  | b₀ :: b₁ :: b₂ :: b₃ :: rest => uint32 [b₀, b₁, b₂, b₃] :: decodeVersions rest
  | _ => []

/-- The error a version response stands for.  `initial` is what arrived together
with the magic. -/
def readUnknownVersionResponse (initial : Bytes) (reader : σ) : WireError × σ :=
  let response : MultiReader σ := ⟨initial, reader⟩
  match readFull response versionLen with
  | ⟨_, some _, response⟩ => (.text "channel synchronization", response.next)
  | ⟨countBuf, none, response⟩ =>
      let versionCount := (uint32 countBuf).toNat
      if versionCount > maxSupportedVersionCount then
        (.text "channel synchronization", response.next)
      else
        match readFull response (versionCount * versionLen) with
        | ⟨_, some _, response⟩ => (.text "channel synchronization", response.next)
        | ⟨versionsBuf, none, response⟩ =>
            (.unsupportedVersion (decodeVersions versionsBuf), response.next)

/-- Read a message.  `head` is what the first read returned: at least the magic, at
most the message section. -/
def readV2 (peer : σ) : Except WireError Message × σ :=
  match readAtLeast peer dataSectionV2 magicLength with
  | ⟨_, some err, peer⟩ => (.error (.read err), peer)
  | ⟨head, none, peer⟩ =>
      if slice head 0 magicLength ≠ magicV2 then
        if slice head 0 magicLength = magicUnknownVersion then
          let (err, peer) := readUnknownVersionResponse (head.drop magicLength) peer
          (.error err, peer)
        else (.error .badMagicNumber, peer)
      else
        -- a first read of the whole message section needs no second one
        let topUp : ReadResult σ :=
          if head.length < dataSectionV2 then readFull peer (dataSectionV2 - head.length)
          else ⟨[], none, peer⟩
        match topUp with
        | ⟨_, some err, peer⟩ => (.error (.read err), peer)
        | ⟨tail, none, peer⟩ =>
            let messageSection := head ++ tail
            let headersLength := uint32 (slice messageSection 12 16)
            let bodyLength := uint32 (slice messageSection 16 20)
            unmarshalV2 peer messageSection headersLength bodyLength

/-! ### Reading a hello -/

/-- Read the rest of a hello, behind its magic. -/
def readHelloV2 (peer : σ) : Except WireError Message × σ :=
  match readFull peer (dataSectionV2 - versionLen) with
  | ⟨_, some err, peer⟩ => (.error (.read err), peer)
  | ⟨tail, none, peer⟩ =>
      if tail.length ≠ dataSectionV2 - versionLen then (.error (.text "short read"), peer)
      else
        -- the magic was read before and is put back in front
        let messageSection := magicV2 ++ tail
        let headersLength := uint32 (slice messageSection 12 16)
        let bodyLength := uint32 (slice messageSection 16 20)
        if headersLength > 16384 ∨ bodyLength > 4192 then
          (.error (.text
            s!"hello message too big. header len: {headersLength}, body len: {bodyLength}"), peer)
        else unmarshalV2 peer messageSection headersLength bodyLength

/-- Read a hello.  The functions that it returns for reading and marshalling from then
on are `readV2` and `marshalV2`, whatever it reads. -/
def readHello (peer : σ) : Except WireError Message × σ :=
  match readFull peer versionLen with
  | ⟨_, some err, peer⟩ => (.error (.read err), peer)
  | ⟨version, none, peer⟩ =>
      if version.length ≠ versionLen then (.error (.text "short read"), peer)
      else if version = magicV2 then readHelloV2 peer
      else (.error .badMagicNumber, peer)

end

end ZitiChannel
