import ZitiChannel.Underlays
import ZitiChannel.WireRoundTrip

/-!
# The classic handshake

A dialer sends a hello whose headers come from its configuration, from the caller and from
a provider.  A listener takes the hello, chooses the connection id and, for a group
without a secret, the secret, and sets up its end of the underlay.  Then it acknowledges
with a result, whose headers come from its own configuration, with some of the hello's
reflected over them.  The dialer checks the result and sets up its end from both messages.

## Main definitions

* `newHello`, `unmarshalHello`, `newResult`, `unmarshalResult` — the messages.
* `ClassicDialer.hello`, `ClassicDialer.acceptResult`, `ClassicDialer.sendHello`.
* `ClassicListener.acceptHello`, `ClassicListener.ackHello`.
* `handshake` — both ends put together, with the wire between them.

## Main results

* `sendHello_frame` — the dialer reads the result that the listener sent.
* `connectionId_agree_iff` — **the ends agree on the connection id exactly when the hello is
  grouped or asks for none.**
* `grouped_handshake` — **both ends of a group hold the same secret and type.**
* `ackHello_success_iff` — **an acknowledgement is read as success exactly when the
  configured headers leave it one.**

The sources are `messages.go`, `classic_dialer.go`, `classic_listener.go` and
`hello_reject.go`.
-/

namespace ZitiChannel

open ByteStream

/-! ### The messages -/

def contentTypeHelloType : Int32 := 0
def contentTypeResultType : Int32 := 2

/-- The sequence number of hello messages and their results. -/
def helloSequence : Int32 := -1

structure Hello where
  idToken : GoString
  headers : Headers

def newHello (idToken : GoString) (attributes : Headers) : Message :=
  let result := newMessage contentTypeHelloType idToken
  { result with headers := result.headers.copy attributes }

def unmarshalHello (message : Message) : Hello := ⟨message.body, message.headers⟩

def newResult (success : Bool) (message : GoString) : Message :=
  let msg := newMessage contentTypeResultType message
  { msg with headers := msg.headers.putBoolHeader resultSuccessHeader success }

structure Result where
  success : Bool
  message : GoString

def unmarshalResult (message : Message) : Result :=
  ⟨(message.headers.getBoolHeader resultSuccessHeader).1, message.body⟩

/-- The class of a refusal. -/
abbrev RejectClass := Int32

def rejectClassUnspecified : RejectClass := 0
def rejectClassBusy : RejectClass := 1
def rejectClassNotPermitted : RejectClass := 2

/-- The class that a result carries, unspecified if it carries none. -/
def getRejectClass (response : Message) : RejectClass :=
  match response.headers.getUint32Header helloRejectClassHeader with
  | (rejectClass, true) => rejectClass.toInt32
  | (_, false) => rejectClassUnspecified

/-- The message that arrives when `m` is sent. -/
def Message.arrived (m : Message) : Message := { m.putReplyFor with cachedReplyFor := none }

/-! ### The dialer -/

/-- Why a hello failed. -/
inductive HelloError
  /-- The provider refused the peer. -/
  | provider (err : GoString)
  /-- The answer is not a message of this protocol. -/
  | negotiate
  | rx (err : WireError)
  /-- The answer is not a result that replies to the hello. -/
  | synchronization (replyFor : Int32)
  /-- The listener refused. -/
  | rejected (rejectClass : RejectClass) (message : GoString)

structure ClassicDialer where
  identity : GoString
  headers : Headers
  /-- The provider, at the peer's certificates: the headers as it leaves them, and its error. -/
  helloHeaderProvider : Option (Headers → Headers × Option GoString)

namespace ClassicDialer

/-- The hello of a dial with the given headers. -/
def hello (self : ClassicDialer) (headers : Headers) : Except HelloError Message :=
  let request := newHello self.identity self.headers
  let request := { request with headers := request.headers.copy headers }
  match self.helloHeaderProvider with
  | none => .ok (request.setSequence helloSequence)
  | some provider =>
      match provider request.headers with
      | (_, some err) => .error (.provider err)
      | (edited, none) => .ok ({ request with headers := edited }.setSequence helloSequence)

/-- What the dialer makes of the answer to `request`.  `commonName` is that of the peer's first
certificate, `ref` the identity of the underlay. -/
def acceptResult (ref : ℕ) (commonName : Option GoString) (request response : Message) :
    Except HelloError Underlay :=
  if !response.isReplyingTo helloSequence || response.contentType ≠ contentTypeResultType then
    .error (.synchronization response.replyFor)
  else
    let result := unmarshalResult response
    if !result.success then .error (.rejected (getRejectClass response) result.message)
    else
      let connectionId := request.headers.index connectionIdHeader
      let connectionId :=
        if connectionId = [] then response.headers.index connectionIdHeader else connectionId
      let id :=
        match response.headers.getStringHeader idHeader with
        | (val, true) => val
        | (_, false) => commonName.getD []
      -- the type is set by the dialing side, not the listener
      .ok ⟨ref, id, connectionId,
        Finmap.insert typeHeader (request.headers.index typeHeader) response.headers⟩

/-- `sendHello` from the point where the hello has been sent. -/
def sendHello {σ : Type} [ByteSource σ] (ref : ℕ) (commonName : Option GoString)
    (request : Message) (peer : σ) : Except HelloError Underlay :=
  match (readV2 peer).1 with
  | .error .badMagicNumber => .error .negotiate
  | .error err => .error (.rx err)
  | .ok response => acceptResult ref commonName request response

end ClassicDialer

/-! ### The listener -/

/-- A random secret: sixteen bytes. -/
abbrev Uuid := { b : Bytes // b.length = 16 }

structure ClassicListener where
  identity : Option GoString
  headers : Headers
  /-- What `headersF` returns, if there is one. -/
  headersF : Option Headers

namespace ClassicListener

/-- What `acceptConnection` does with a hello: the request as it leaves it, since the hello
shares its headers, and the underlay.  `generatedId` is what `NextConnectionId` returns. -/
def acceptHello (ref : ℕ) (generatedId : GoString) (newSecret : Uuid) (request : Message) :
    Message × Underlay :=
  let hello := unmarshalHello request
  let connectionId := (request.headers.getStringHeader connectionIdHeader).1
  let isGrouped := (request.headers.getBoolHeader isGroupedHeader).1
  let connectionId := if !isGrouped || connectionId = [] then generatedId else connectionId
  let headers :=
    if isGrouped && (hello.headers.index groupSecretHeader).length = 0 then
      Finmap.insert groupSecretHeader newSecret.1 hello.headers
    else hello.headers
  ({ request with headers := headers }, ⟨ref, hello.idToken, connectionId, headers⟩)

/-- The headers of a result, before those that the hello determines. -/
def configured (self : ClassicListener) (h : Headers) : Headers :=
  let h : Headers := h.copy self.headers
  match self.headersF with
  | some headers => h.copy headers
  | none => h

/-- The answer to a hello. -/
def ackHello (self : ClassicListener) (impl : Underlay) (request : Message) (success : Bool)
    (message : GoString) : Message :=
  let response := newResult success message
  let h : Headers := self.configured response.headers
  let h : Headers := h.putStringHeader connectionIdHeader impl.connectionId
  let h : Headers := match self.identity with
    | some token => h.putStringHeader idHeader token
    | none => h
  -- reflect back the grouping, the type and the secret
  let h : Headers :=
    if (request.headers.getBoolHeader isGroupedHeader).1 then h.putBoolHeader isGroupedHeader true
    else h
  let underlayType := (request.headers.getStringHeader typeHeader).1
  let h : Headers := if underlayType ≠ [] then h.putStringHeader typeHeader underlayType else h
  let groupSecret := request.headers.index groupSecretHeader
  let h : Headers :=
    if groupSecret.length > 0 then Finmap.insert groupSecretHeader groupSecret h else h
  ({ response with headers := h }.setSequence helloSequence).replyTo request

end ClassicListener

/-! ### Both ends -/

/-- The choices of one handshake that are neither side's configuration. -/
structure Chance where
  generatedId : GoString
  newSecret : Uuid
  commonName : Option GoString

/-- A handshake in which all messages arrive: the underlays of the dialer and the listener. -/
def handshake (d : ClassicDialer) (l : ClassicListener) (headers : Headers) (chance : Chance) :
    Except HelloError (Underlay × Underlay) := do
  let request ← d.hello headers
  let (request', impl) :=
    ClassicListener.acceptHello 1 chance.generatedId chance.newSecret request.arrived
  let response := l.ackHello impl request' true []
  let underlay ← ClassicDialer.acceptResult 0 chance.commonName request response.arrived
  return (underlay, impl)

/-! ### What the messages carry -/

namespace Message

@[simp] theorem arrived_sequence (m : Message) : m.arrived.sequence = m.sequence := by
  unfold arrived putReplyFor; split <;> rfl

@[simp] theorem arrived_contentType (m : Message) : m.arrived.contentType = m.contentType := by
  unfold arrived putReplyFor; split <;> rfl

@[simp] theorem arrived_body (m : Message) : m.arrived.body = m.body := by
  unfold arrived putReplyFor; split <;> rfl

/-- The wire touches no header but the one for the reply target. -/
theorem lookup_arrived (m : Message) {key : Int32} (h : key ≠ replyForHeader) :
    m.arrived.headers.lookup key = m.headers.lookup key := by
  refine (lookup_putReplyFor m key).trans ?_
  split
  · exact if_neg h
  · rfl

theorem index_arrived (m : Message) {key : Int32} (h : key ≠ replyForHeader) :
    m.arrived.headers.index key = m.headers.index key := by
  rw [Headers.index, lookup_arrived m h, Headers.index]

theorem isGrouped_arrived (m : Message) :
    (m.arrived.headers.getBoolHeader isGroupedHeader).1 =
      (m.headers.getBoolHeader isGroupedHeader).1 := by
  rw [Headers.getBoolHeader_fst, m.index_arrived (by decide), Headers.getBoolHeader_fst]

/-- A reply arrives as a reply to the same sequence number, whatever its headers were. -/
theorem replyFor_arrived {m : Message} {seq : Int32} (h : m.cachedReplyFor = some seq) :
    m.arrived.replyFor = seq := by
  refine MessageHeader.replyFor_of_header rfl ?_
  have hlookup := lookup_putReplyFor m replyForHeader
  rw [h] at hlookup
  exact hlookup.trans (if_pos rfl)

end Message

theorem ClassicDialer.hello_sequence {d : ClassicDialer} {headers : Headers} {request : Message}
    (h : d.hello headers = .ok request) : request.sequence = helloSequence := by
  unfold hello at h
  dsimp only at h
  split at h
  · cases h; rfl
  · split at h
    · cases h
    · cases h; rfl

/-- What the dialer's underlay takes from the two messages. -/
theorem ClassicDialer.acceptResult_ok {ref : ℕ} {commonName : Option GoString}
    {request response : Message} {u : Underlay}
    (h : acceptResult ref commonName request response = .ok u) :
    u.connectionId = (if request.headers.index connectionIdHeader = [] then
        response.headers.index connectionIdHeader else request.headers.index connectionIdHeader) ∧
      u.headers =
        Finmap.insert typeHeader (request.headers.index typeHeader) response.headers := by
  unfold acceptResult at h
  dsimp only at h
  split at h
  · cases h
  · split at h
    · cases h
    · cases h; exact ⟨rfl, rfl⟩

/-- A result that replies to the hello is taken exactly when it reports success. -/
theorem ClassicDialer.acceptResult_ok_iff {ref : ℕ} {commonName : Option GoString}
    {request response : Message} (hreply : response.isReplyingTo helloSequence = true)
    (htype : response.contentType = contentTypeResultType) :
    (∃ u, acceptResult ref commonName request response = .ok u) ↔
      (unmarshalResult response).success = true := by
  unfold acceptResult
  simp only [hreply, htype, ne_eq, not_true_eq_false, decide_false, Bool.not_true, Bool.or_false,
    Bool.false_eq_true, if_false]
  cases (unmarshalResult response).success
  · simp
  · simp

namespace ClassicListener

/-- The headers of an answer that neither the hello nor the listener's identity determine are as
they are configured. -/
theorem index_ackHello_of_ne (l : ClassicListener) (impl : Underlay) (request : Message)
    (success : Bool) (message : GoString) {key : Int32}
    (h : key ∉ [connectionIdHeader, idHeader, isGroupedHeader, typeHeader, groupSecretHeader,
      reflectedHeader]) :
    (l.ackHello impl request success message).headers.index key =
      (l.configured (newResult success message).headers).index key := by
  simp only [List.mem_cons, List.not_mem_nil, or_false, not_or] at h
  obtain ⟨hconn, hid, hgrouped, htype, hsecret, hreflected⟩ := h
  unfold ackHello Message.replyTo Headers.putStringHeader Headers.putBoolHeader
  cases l.identity <;> cases request.headers.lookup reflectedHeader <;>
    simp [Message.setSequence, apply_ite (Headers.index · key), Headers.index_insert_of_ne, *]

@[simp] theorem ackHello_contentType (l : ClassicListener) (impl : Underlay) (request : Message)
    (success : Bool) (message : GoString) :
    (l.ackHello impl request success message).contentType = contentTypeResultType := rfl

@[simp] theorem ackHello_cachedReplyFor (l : ClassicListener) (impl : Underlay)
    (request : Message) (success : Bool) (message : GoString) :
    (l.ackHello impl request success message).cachedReplyFor = some request.sequence := rfl

theorem index_ackHello_connectionId (l : ClassicListener) (impl : Underlay) (request : Message)
    (success : Bool) (message : GoString) :
    (l.ackHello impl request success message).headers.index connectionIdHeader =
      impl.connectionId := by
  unfold ackHello Message.replyTo Headers.putStringHeader Headers.putBoolHeader
  cases l.identity <;> cases request.headers.lookup reflectedHeader <;>
    simp (disch := decide) [Message.setSequence, Headers.index_insert_of_ne,
      apply_ite (Headers.index · connectionIdHeader)]

theorem index_ackHello_isGrouped (l : ClassicListener) (impl : Underlay) {request : Message}
    (success : Bool) (message : GoString)
    (h : (request.headers.getBoolHeader isGroupedHeader).1 = true) :
    (l.ackHello impl request success message).headers.index isGroupedHeader = [1] := by
  unfold ackHello Message.replyTo Headers.putStringHeader Headers.putBoolHeader
  cases l.identity <;> cases request.headers.lookup reflectedHeader <;>
    simp (disch := decide) [Message.setSequence, Headers.index_insert_of_ne,
      apply_ite (Headers.index · isGroupedHeader), h]

theorem index_ackHello_groupSecret (l : ClassicListener) (impl : Underlay) {request : Message}
    (success : Bool) (message : GoString) (h : request.headers.index groupSecretHeader ≠ []) :
    (l.ackHello impl request success message).headers.index groupSecretHeader =
      request.headers.index groupSecretHeader := by
  have hpos : 0 < (request.headers.index groupSecretHeader).length := List.length_pos_iff.mpr h
  unfold ackHello Message.replyTo Headers.putStringHeader Headers.putBoolHeader
  cases l.identity <;> cases request.headers.lookup reflectedHeader <;>
    simp (disch := decide) [Message.setSequence, Headers.index_insert_of_ne, hpos]

/-- The value that the configured headers leave under a header of a result. -/
theorem lookup_configured (l : ClassicListener) (h : Headers) (key : Int32) :
    (l.configured h).lookup key =
      ((l.headersF.bind fun headers => headers.lookup key).or (l.headers.lookup key)).or
        (h.lookup key) := by
  unfold configured
  cases l.headersF with
  | none => simp [Headers.lookup_copy]
  | some headers => simp [Headers.lookup_copy, Option.or_assoc]

section

variable (ref : ℕ) (generatedId : GoString) (newSecret : Uuid) (request : Message)

/-- A listener keeps the requested id only of a grouped hello. -/
theorem acceptHello_connectionId :
    (acceptHello ref generatedId newSecret request).2.connectionId =
      if (request.headers.getBoolHeader isGroupedHeader).1 = true ∧
          request.headers.index connectionIdHeader ≠ []
      then request.headers.index connectionIdHeader else generatedId := by
  simp only [acceptHello, Headers.getStringHeader_fst]
  cases (request.headers.getBoolHeader isGroupedHeader).1
  · simp
  · by_cases hid : request.headers.index connectionIdHeader = []
    · simp [hid]
    · simp [hid]

theorem acceptHello_index_of_ne {key : Int32} (h : key ≠ groupSecretHeader) :
    (acceptHello ref generatedId newSecret request).1.headers.index key =
      request.headers.index key := by
  simp only [acceptHello]
  split
  · exact Headers.index_insert_of_ne h _
  · rfl

/-- The secret that a listener takes a group to have. -/
theorem acceptHello_groupSecret
    (h : (request.headers.getBoolHeader isGroupedHeader).1 = true) :
    (acceptHello ref generatedId newSecret request).1.headers.index groupSecretHeader =
      if request.headers.index groupSecretHeader = [] then newSecret.1
      else request.headers.index groupSecretHeader := by
  simp only [acceptHello, h, Bool.true_and, unmarshalHello, List.length_eq_zero_iff,
    decide_eq_true_eq]
  split
  · exact Headers.index_insert_self _ _ _
  · rfl

end

end ClassicListener

/-! ### The handshake taken apart -/

theorem handshake_ok {d : ClassicDialer} {l : ClassicListener} {headers : Headers} {chance : Chance}
    {dialed accepted : Underlay} (h : handshake d l headers chance = .ok (dialed, accepted)) :
    ∃ request, d.hello headers = .ok request ∧
      let received :=
        ClassicListener.acceptHello 1 chance.generatedId chance.newSecret request.arrived
      accepted = received.2 ∧
      ClassicDialer.acceptResult 0 chance.commonName request
        (l.ackHello received.2 received.1 true []).arrived = .ok dialed := by
  unfold handshake at h
  cases hreq : d.hello headers with
  | error err => rw [hreq] at h; cases h
  | ok request =>
    refine ⟨request, rfl, ?_⟩
    rw [hreq] at h
    simp only [bind, Except.bind] at h
    split at h
    · cases h
    · next hresult => cases h; exact ⟨rfl, hresult⟩

/-! ### The connection id -/

/-- **Connection ids.**  After a successful handshake both ends have the same connection id if and
only if the hello was grouped, or asked for no id, or asked for the one that the listener
happened to generate. -/
theorem connectionId_agree_iff (d : ClassicDialer) (l : ClassicListener) (headers : Headers)
    (chance : Chance) (request : Message) (hrequest : d.hello headers = .ok request)
    (dialed accepted : Underlay) (h : handshake d l headers chance = .ok (dialed, accepted)) :
    dialed.connectionId = accepted.connectionId ↔
      (request.headers.getBoolHeader isGroupedHeader).1 = true ∨
        request.headers.index connectionIdHeader = [] ∨
        request.headers.index connectionIdHeader = chance.generatedId := by
  obtain ⟨request', hreq, haccepted, hresult⟩ := handshake_ok h
  obtain rfl : request = request' := Except.ok.inj (hrequest.symm.trans hreq)
  have hid := request.index_arrived (show connectionIdHeader ≠ replyForHeader by decide)
  have hgrouped := request.isGrouped_arrived
  have haccId := ClassicListener.acceptHello_connectionId 1 chance.generatedId chance.newSecret
    request.arrived
  have hdialId := (ClassicDialer.acceptResult_ok hresult).1
  rw [hid, hgrouped] at haccId
  rw [Message.index_arrived _ (by decide), ClassicListener.index_ackHello_connectionId] at hdialId
  rw [hdialId, haccepted, haccId]
  by_cases hempty : request.headers.index connectionIdHeader = []
  · simp [hempty]
  · cases (request.headers.getBoolHeader isGroupedHeader).1
    · simp [hempty]
    · simp [hempty]

/-- A dialer and a listener without headers of their own, and the choices of a handshake between
them. -/
def plainDialer : ClassicDialer := ⟨str "dialer", ∅, none⟩
def plainListener : ClassicListener := ⟨some (str "listener"), ∅, none⟩
def plainChance : Chance := ⟨str "fresh", ⟨List.replicate 16 7, rfl⟩, none⟩

/-- The headers of a dial into the group "group". -/
def groupHeaders : Headers :=
  (Headers.putBoolHeader ∅ isGroupedHeader true).putStringHeader connectionIdHeader (str "group")

/-- A dial into a group. -/
theorem connectionId_agree_group :
    ∃ request dialed accepted, plainDialer.hello groupHeaders = .ok request ∧
      handshake plainDialer plainListener groupHeaders plainChance = .ok (dialed, accepted) ∧
      dialed.connectionId = accepted.connectionId :=
  ⟨_, _, _, rfl, rfl, (connectionId_agree_iff plainDialer plainListener groupHeaders plainChance _
    rfl _ _ rfl).mpr (Or.inl (by decide))⟩

/-- An id is requested without a group: the dialer's end has it, the listener's end another. -/
theorem connectionId_agree_ungrouped :
    ∃ dialed accepted,
      handshake plainDialer plainListener
        (Headers.putStringHeader ∅ connectionIdHeader (str "mine")) plainChance =
          .ok (dialed, accepted) ∧
      dialed.connectionId = str "mine" ∧ accepted.connectionId = str "fresh" ∧
      dialed.connectionId ≠ accepted.connectionId :=
  ⟨_, _, rfl, by decide⟩

/-! ### Groups -/

/-- Every channel that is built on the underlay `one` takes in, as long as it takes in
underlays at all, those that carry the secret of `other` and no others. -/
def AcceptsSecretOf (one other : Underlay) : Prop :=
  ∀ config ch, config.underlay = some one → newChannel config = .ok ch → ∀ later u,
    ((ch.calls later).acceptUnderlay u).2 = none ↔
      (ch.calls later).isMultiUnderlayCapable = true ∧
        u.headers.index groupSecretHeader = other.headers.index groupSecretHeader ∧
        (ch.calls later).closed = false

theorem acceptsSecretOf_of_eq {one other : Underlay}
    (h : one.headers.index groupSecretHeader = other.headers.index groupSecretHeader) :
    AcceptsSecretOf one other := by
  intro config ch hunderlay hnew later u
  obtain ⟨first, hfirst, -, hch⟩ := newChannel_ok hnew
  obtain rfl : one = first := Option.some.inj (hunderlay.symm.trans hfirst)
  have hsecret : (ch.calls later).groupSecret = other.headers.index groupSecretHeader := by
    rw [calls_newChannel hch later, (ChannelImpl.sameSetup_after _ _).1, ← h]
    rfl
  rw [← hsecret]
  rcases ChannelImpl.acceptUnderlay_cases (ch.calls later) u with ⟨hadm, hu⟩ | ⟨hnot, why, hu⟩
  · exact iff_of_true (by rw [hu]) hadm
  · exact iff_of_false (by rw [hu]; simp [ChannelImpl.rejectUnderlay]) hnot

/-- **Groups.**  After a successful handshake with a grouped hello both ends are grouped, hold the
same secret, which is the dialer's if it sent one and the generated one otherwise, and have the same
type; a channel on either end takes in exactly the secret of the other. -/
theorem grouped_handshake (d : ClassicDialer) (l : ClassicListener) (headers : Headers)
    (chance : Chance) (request : Message) (hrequest : d.hello headers = .ok request)
    (hgrouped : (request.headers.getBoolHeader isGroupedHeader).1 = true)
    (dialed accepted : Underlay) (h : handshake d l headers chance = .ok (dialed, accepted)) :
    let secret := if request.headers.index groupSecretHeader = [] then chance.newSecret.1
      else request.headers.index groupSecretHeader
    (dialed.headers.getBoolHeader isGroupedHeader).1 = true ∧
      (accepted.headers.getBoolHeader isGroupedHeader).1 = true ∧
      secret ≠ [] ∧
      dialed.headers.index groupSecretHeader = secret ∧
      accepted.headers.index groupSecretHeader = secret ∧
      getUnderlayType dialed = getUnderlayType accepted ∧
      AcceptsSecretOf dialed accepted ∧ AcceptsSecretOf accepted dialed := by
  intro secret
  obtain ⟨request', hreq, haccepted, hresult⟩ := handshake_ok h
  obtain rfl : request = request' := Except.ok.inj (hrequest.symm.trans hreq)
  have hdialed := (ClassicDialer.acceptResult_ok hresult).2
  set received := ClassicListener.acceptHello 1 chance.generatedId chance.newSecret request.arrived
    with hreceived
  -- the listener's underlay and the request that it answers share their headers
  have hshared : accepted.headers = received.1.headers := by rw [haccepted]; rfl
  have hne : secret ≠ [] := by
    simp only [secret]
    split
    · exact List.ne_nil_of_length_pos (by rw [chance.newSecret.2]; decide)
    · assumption
  have hacceptedSecret : received.1.headers.index groupSecretHeader = secret := by
    rw [hreceived, ClassicListener.acceptHello_groupSecret _ _ _ _
      (request.isGrouped_arrived.trans hgrouped), request.index_arrived (by decide)]
  have hacceptedGrouped : (received.1.headers.getBoolHeader isGroupedHeader).1 = true := by
    rw [Headers.getBoolHeader_fst, hreceived,
      ClassicListener.acceptHello_index_of_ne _ _ _ _ (by decide), ← Headers.getBoolHeader_fst,
      request.isGrouped_arrived, hgrouped]
  have hdialedSecret : dialed.headers.index groupSecretHeader = secret := by
    rw [hdialed, Headers.index_insert_of_ne (by decide), Message.index_arrived _ (by decide),
      ClassicListener.index_ackHello_groupSecret _ _ _ _ (hacceptedSecret ▸ hne), hacceptedSecret]
  have hdialedGrouped : (dialed.headers.getBoolHeader isGroupedHeader).1 = true := by
    rw [Headers.getBoolHeader_fst, hdialed, Headers.index_insert_of_ne (by decide),
      Message.index_arrived _ (by decide),
      ClassicListener.index_ackHello_isGrouped _ _ _ _ hacceptedGrouped]
    rfl
  have htype : getUnderlayType dialed = getUnderlayType accepted := by
    rw [getUnderlayType, getUnderlayType, hdialed, Headers.index_insert_self, hshared, hreceived,
      ClassicListener.acceptHello_index_of_ne _ _ _ _ (by decide),
      request.index_arrived (by decide)]
  rw [hshared]
  have hsame : dialed.headers.index groupSecretHeader = accepted.headers.index groupSecretHeader := by
    rw [hdialedSecret, hshared, hacceptedSecret]
  exact ⟨hdialedGrouped, hacceptedGrouped, hne, hdialedSecret, hacceptedSecret, htype,
    acceptsSecretOf_of_eq hsame, acceptsSecretOf_of_eq hsame.symm⟩

/-- A grouped hello without a secret: both ends hold the generated one. -/
theorem grouped_handshake_generated :
    ∃ request dialed accepted, plainDialer.hello groupHeaders = .ok request ∧
      handshake plainDialer plainListener groupHeaders plainChance = .ok (dialed, accepted) ∧
      dialed.headers.index groupSecretHeader = List.replicate 16 7 ∧
      accepted.headers.index groupSecretHeader = List.replicate 16 7 := by
  refine ⟨_, _, _, rfl, rfl, ?_⟩
  obtain ⟨-, -, -, hdialed, haccepted, -⟩ :=
    grouped_handshake plainDialer plainListener groupHeaders plainChance _ rfl (by decide) _ _ rfl
  exact ⟨hdialed, haccepted⟩

/-! ### The acknowledgement -/

/-- What the dialer reads is what the listener sent. -/
theorem sendHello_frame {σ : Type} [ByteSource σ] (ref : ℕ) (commonName : Option GoString)
    (request : Message) (ack : Outgoing) {peer : σ} {rest : Bytes}
    (hfit : ack.dataLen ≤ maxInt32) (hpeer : ByteSource.remaining peer = ack.frame ++ rest) :
    (readV2 peer).1 = .ok ack.msg.arrived ∧
      ClassicDialer.sendHello ref commonName request peer =
        ClassicDialer.acceptResult ref commonName request ack.msg.arrived := by
  obtain ⟨next, -, hread⟩ := readV2_frame hfit hpeer
  have harrived : (readV2 peer).1 = .ok ack.msg.arrived := by rw [hread]; rfl
  exact ⟨harrived, by rw [ClassicDialer.sendHello, harrived]⟩

/-- The value under `resultSuccessHeader` in a positive answer: the listener's own headers, if
they have one there, replace it. -/
def ClassicListener.successValue (l : ClassicListener) : Bytes :=
  ((l.headersF.bind fun headers => headers.lookup resultSuccessHeader).or
    (l.headers.lookup resultSuccessHeader)).getD [1]

theorem ClassicListener.success_ackHello (l : ClassicListener) (impl : Underlay)
    (request : Message) (message : GoString) :
    (unmarshalResult (l.ackHello impl request true message).arrived).success =
      decide (l.successValue.head? = some 1) := by
  have hindex : (l.ackHello impl request true message).arrived.headers.index resultSuccessHeader =
      l.successValue := by
    rw [Message.index_arrived _ (by decide), l.index_ackHello_of_ne _ _ _ _ (by decide),
      Headers.index, l.lookup_configured, successValue]
    have hnew : (newResult true message).headers.lookup resultSuccessHeader = some [1] := rfl
    rw [hnew, Option.getD_or, Option.getD_some]
  rw [unmarshalResult, Headers.getBoolHeader_fst, hindex]

/-- **Acknowledgements.**  The answer of a listener that accepted a hello, read from any byte
source that delivers it, is always recognised as the result that replies to the hello.  It is
read as a success, and the dialer takes it, if and only if the listener's own headers do not
replace the success by something else. -/
theorem ackHello_success_iff {σ : Type} [ByteSource σ] (d : ClassicDialer) (l : ClassicListener)
    (headers : Headers) (request : Message) (hrequest : d.hello headers = .ok request)
    (chance : Chance) (ack : Outgoing)
    (hack : ack.msg =
      let received :=
        ClassicListener.acceptHello 1 chance.generatedId chance.newSecret request.arrived
      l.ackHello received.2 received.1 true [])
    (hfit : ack.dataLen ≤ maxInt32) (peer : σ) (rest : Bytes)
    (hpeer : ByteSource.remaining peer = ack.frame ++ rest) :
    ∃ response, (readV2 peer).1 = .ok response ∧
      response.isReplyingTo helloSequence = true ∧
      response.contentType = contentTypeResultType ∧
      ((unmarshalResult response).success = true ↔ l.successValue.head? = some 1) ∧
      ((∃ u, ClassicDialer.sendHello 0 chance.commonName request peer = .ok u) ↔
        l.successValue.head? = some 1) := by
  obtain ⟨hread, hsend⟩ := sendHello_frame 0 chance.commonName request ack hfit hpeer
  have hreply : ack.msg.arrived.isReplyingTo helloSequence = true := by
    refine decide_eq_true (Message.replyFor_arrived ?_)
    rw [hack, ClassicListener.ackHello_cachedReplyFor]
    exact congrArg some ((request.arrived_sequence).trans (ClassicDialer.hello_sequence hrequest))
  have htype : ack.msg.arrived.contentType = contentTypeResultType := by
    rw [Message.arrived_contentType, hack, ClassicListener.ackHello_contentType]
  have hsuccess : (unmarshalResult ack.msg.arrived).success = true ↔
      l.successValue.head? = some 1 := by
    rw [hack, ClassicListener.success_ackHello, decide_eq_true_eq]
  refine ⟨_, hread, hreply, htype, hsuccess, ?_⟩
  rw [hsend, ClassicDialer.acceptResult_ok_iff hreply htype, hsuccess]

/-- The hello of a dial without headers, and the answers to it of a listener without headers and
of one whose headers use the key of the success. -/
def plainHello : Message := (newHello (str "dialer") ∅).setSequence helloSequence

def plainAnswer (l : ClassicListener) : Message :=
  let received :=
    ClassicListener.acceptHello 1 plainChance.generatedId plainChance.newSecret plainHello.arrived
  l.ackHello received.2 received.1 true []

def plainAck : Outgoing where
  msg := plainAnswer ⟨none, ∅, none⟩
  order := ⟨[⟨0, str "fresh"⟩, ⟨1, [255, 255, 255, 255]⟩, ⟨2, [1]⟩], by decide⟩

def overriddenAck : Outgoing where
  msg := plainAnswer ⟨none, Finmap.singleton resultSuccessHeader [0], none⟩
  order := ⟨[⟨0, str "fresh"⟩, ⟨1, [255, 255, 255, 255]⟩, ⟨2, [0]⟩], by decide⟩

/-- A listener without headers: the dial succeeds. -/
theorem ackHello_success_plain :
    plainAck.dataLen ≤ maxInt32 ∧
      ∃ u, ClassicDialer.sendHello 0 none plainHello
        (⟨plainAck.frame, fun _ => (1, false)⟩ : Chopped) = .ok u := by
  obtain ⟨-, -, -, -, -, hsend⟩ := ackHello_success_iff plainDialer ⟨none, ∅, none⟩ ∅ plainHello rfl
    plainChance plainAck rfl (by decide) (⟨plainAck.frame, fun _ => (1, false)⟩ : Chopped) []
    (List.append_nil _).symm
  exact ⟨by decide, hsend.mpr (by decide)⟩

/-- A listener with a zero under the key of the success: it accepts, and the dialer reports a
refusal. -/
theorem ackHello_success_overridden :
    plainDialer.hello ∅ = .ok plainHello ∧
      ClassicDialer.sendHello 0 none plainHello
        (⟨overriddenAck.frame, fun _ => (1, false)⟩ : Chopped) = .error (.rejected 0 []) :=
  ⟨rfl, (sendHello_frame 0 none plainHello overriddenAck (by decide)
    (List.append_nil _).symm).2⟩

end ZitiChannel
