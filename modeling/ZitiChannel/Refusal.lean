import ZitiChannel.Handshake

/-!
# Refused hellos

A listener that refuses a hello says why: `RejectHello` sends a negative result with the text
of the reason and, unless it is unspecified, its class, and closes the underlay.  The result
is not built as a reply to the hello, which is no longer at hand, but made to look like one.
The dialer turns it into an error that says that dialling again is of no use.

## Main definitions

* `GoError` — errors with what they wrap, and `GoError.as`, the search of `errors.As`.
* `rejectResponse`, `rejectHello` — the refusal.
* `ClassicDialer.sendHelloOver`, `ClassicDialer.createWithHeaders` — a dial as a whole, with
  its one retry for the sake of the protocol version.

## Main results

* `getRejectClass_rejectResponse` — every class survives its encoding.
* `rejectHello_arrives` — **a refusal arrives with its class and its text, ends the dial, and
  leaves the underlay closed.**

The sources are `hello_reject.go` and `classic_dialer.go`.
-/

namespace ZitiChannel

open ByteStream

/-! ### Errors -/

/-- A short name for the class. -/
def RejectClass.string (self : RejectClass) : GoString :=
  if self = rejectClassBusy then str "busy"
  else if self = rejectClassNotPermitted then str "not-permitted"
  else str "unspecified"

/-- A refused hello. -/
structure RejectedError where
  rejectClass : RejectClass
  message : GoString

def RejectedError.error (self : RejectedError) : GoString :=
  if self.message ≠ [] then self.message
  else if self.rejectClass = rejectClassUnspecified then str "hello rejected"
  else str "hello rejected: " ++ RejectClass.string self.rejectClass

def WireError.error : WireError → GoString
  | .read .eof => str "EOF"
  | .read .unexpectedEOF => str "unexpected EOF"
  | .read .shortBuffer => str "short buffer"
  | .badMagicNumber => str "protocol error: invalid header"
  | .unsupportedVersion _ => str "server did not support requested channel version"
  | .text msg => str msg

/-- An error: one of this package's own types, or any other, with its text and the errors that
its `Unwrap` returns. -/
inductive GoError
  | other (text : GoString) (wrapped : List GoError)
  | rejected (err : RejectedError)
  /-- A `NonRetryableError`, which wraps another error. -/
  | nonRetryable (err : GoError)
  | wire (err : WireError)

namespace GoError

/-- An error that is only its text. -/
def new (text : GoString) : GoError := .other text []

def error : GoError → GoString
  | .other text _ => text
  | .rejected err => err.error
  | .nonRetryable err => err.error
  | .wire err => err.error

mutual

/-- The first error that is of the wanted type, depth first: the error itself, then what it
wraps. -/
def as {α : Type} (target : GoError → Option α) : GoError → Option α
  | .other text wrapped => (target (.other text wrapped)).or (asAny target wrapped)
  | .rejected err => target (.rejected err)
  | .nonRetryable err => (target (.nonRetryable err)).or (as target err)
  | .wire err => target (.wire err)

def asAny {α : Type} (target : GoError → Option α) : List GoError → Option α
  | [] => none
  | err :: errs => (as target err).or (asAny target errs)

end

def asRejected : GoError → Option RejectedError
  | .rejected err => some err
  | _ => none

/-- `GetRejectClass`, of a reason that may be missing. -/
def getRejectClass (reason : Option GoError) : RejectClass :=
  match reason.bind (as asRejected) with
  | some err => err.rejectClass
  | none => rejectClassUnspecified

def isNonRetryable (err : GoError) : Bool :=
  (err.as fun | .nonRetryable err => some err | _ => none).isSome

/-- The version to try again with, and whether the peer named it.  The only version that this
side speaks is the second. -/
def getRetryVersion : GoError → UInt32 × Bool
  | .wire (.unsupportedVersion supportedVersions) => (2, supportedVersions.contains 2)
  | _ => (2, false)

end GoError

/-! ### Refusing -/

/-- The text of a reason. -/
def reasonText (reason : Option GoError) : GoString := (reason.map GoError.error).getD []

/-- The negative result that tells the dialer of a refusal. -/
def rejectResponse (reason : Option GoError) : Message :=
  let response := newResult false (reasonText reason)
  let rejectClass := GoError.getRejectClass reason
  let response :=
    if rejectClass ≠ rejectClassUnspecified then
      { response with
        headers := response.headers.putUint32Header helloRejectClassHeader rejectClass.toUInt32 }
    else response
  -- the reply target is known without the request
  { response with sequence := helloSequence, cachedReplyFor := some helloSequence }

/-- What `RejectHello` calls on its underlay. -/
inductive UnderlayCall
  | tx (m : Message)
  | close

/-- Refuse a hello on an underlay whose `Tx` and `Close` return the given errors: the calls in
order, and the errors that are returned, joined. -/
def rejectHello (reason txErr closeErr : Option GoError) : List UnderlayCall × List GoError :=
  ([.tx (rejectResponse reason), .close], txErr.toList ++ closeErr.toList)

/-! ### Dialling -/

/-- The error that a failed hello is reported as.  `remoteAddr` is the peer's address. -/
def HelloError.toGoError (remoteAddr : GoString) : HelloError → GoError
  | .provider err => .nonRetryable (.new err)
  | .negotiate =>
      .new (str "could not negotiate connection with " ++ remoteAddr ++ str ", invalid header")
  | .rx err => .wire err
  | .synchronization replyFor =>
      .new (str s!"channel synchronization error, expected {helloSequence}, got {replyFor}")
  | .rejected rejectClass message => .nonRetryable (.rejected ⟨rejectClass, message⟩)

/-- A connection to a peer, and how it answers. -/
structure Peer (σ : Type) where
  remoteAddr : GoString
  setDeadline : Option GoError
  /-- The error of sending the hello. -/
  tx : Option GoError
  commonName : Option GoString
  /-- What the peer sends. -/
  stream : σ

/-- One turn of the dial loop. -/
structure Attempt (σ : Type) where
  /-- Whether the deadline is still to come when the loop looks. -/
  beforeDeadline : Bool
  dial : Except GoError (Peer σ)

namespace ClassicDialer

variable {σ : Type} [ByteSource σ]

/-- `sendHello` as a whole, on a connection that is there. -/
def sendHelloOver (self : ClassicDialer) (headers : Headers) (ref : ℕ) (peer : Peer σ) :
    Except GoError Underlay :=
  match peer.setDeadline with
  | some err => .error err
  | none =>
      match self.hello headers with
      | .error err => .error (err.toGoError peer.remoteAddr)
      | .ok request =>
          match peer.tx with
          | some err => .error err
          | none =>
              (sendHello ref peer.commonName request peer.stream).mapError
                (HelloError.toGoError peer.remoteAddr)

/-- The loop of `CreateWithHeaders`: what it returns, and the versions that it dialled with,
one for each dial. -/
def createLoop (self : ClassicDialer) (headers : Headers) (attempts : ℕ → Attempt σ)
    (tryCount : ℕ) (version : UInt32) : Except GoError Underlay × List UInt32 :=
  if (attempts tryCount).beforeDeadline then
    match (attempts tryCount).dial with
    | .error err => (.error err, [version])
    | .ok peer =>
        match self.sendHelloOver headers tryCount peer with
        | .ok underlay => (.ok underlay, [version])
        | .error err =>
            if tryCount > 0 || err.isNonRetryable then (.error err, [version])
            else
              match err.getRetryVersion with
              | (_, false) => (.error err, [version])
              | (retryVersion, true) =>
                  let (result, versions) := createLoop self headers attempts (tryCount + 1) retryVersion
                  (result, version :: versions)
  else (.error (.new (str "timeout waiting for dial")), [])
termination_by 1 - tryCount
decreasing_by simp_all

def createWithHeaders (self : ClassicDialer) (headers : Headers) (attempts : ℕ → Attempt σ) :
    Except GoError Underlay × List UInt32 :=
  self.createLoop headers attempts 0 2

end ClassicDialer

/-! ### What a refusal carries -/

theorem rejectResponse_contentType (reason : Option GoError) :
    (rejectResponse reason).contentType = contentTypeResultType := by
  simp only [rejectResponse]
  split
  · rfl
  · rfl

theorem rejectResponse_body (reason : Option GoError) :
    (rejectResponse reason).body = reasonText reason := by
  simp only [rejectResponse]
  split
  · rfl
  · rfl

theorem rejectResponse_success (reason : Option GoError) :
    (rejectResponse reason).headers.index resultSuccessHeader = [0] := by
  simp only [rejectResponse]
  split
  · exact (Headers.index_insert_of_ne (by decide) _).trans rfl
  · rfl

/-- **Every class survives**, the unspecified one by being left out. -/
theorem getRejectClass_rejectResponse (reason : Option GoError) :
    getRejectClass (rejectResponse reason).arrived = GoError.getRejectClass reason := by
  have hlookup : (rejectResponse reason).arrived.headers.lookup helloRejectClassHeader =
      if GoError.getRejectClass reason ≠ rejectClassUnspecified then
        some (putUint32 (GoError.getRejectClass reason).toUInt32) else none := by
    rw [Message.lookup_arrived _ (by decide)]
    simp only [rejectResponse]
    split
    · exact Finmap.lookup_insert _
    · rfl
  rw [getRejectClass, Headers.getUint32Header, hlookup]
  by_cases hclass : GoError.getRejectClass reason = rejectClassUnspecified
  · simp [hclass]
  · simp [hclass]

/-- What the dialer makes of a refusal. -/
theorem acceptResult_rejectResponse (ref : ℕ) (commonName : Option GoString) (request : Message)
    (reason : Option GoError) :
    ClassicDialer.acceptResult ref commonName request (rejectResponse reason).arrived =
      .error (.rejected (GoError.getRejectClass reason) (reasonText reason)) := by
  have hreply : (rejectResponse reason).arrived.isReplyingTo helloSequence = true :=
    decide_eq_true (Message.replyFor_arrived rfl)
  have htype : (rejectResponse reason).arrived.contentType = contentTypeResultType := by
    rw [Message.arrived_contentType, rejectResponse_contentType]
  have hsuccess : (unmarshalResult (rejectResponse reason).arrived).success = false := by
    rw [unmarshalResult, Headers.getBoolHeader_fst, Message.index_arrived _ (by decide),
      rejectResponse_success]
    rfl
  have hmessage : (unmarshalResult (rejectResponse reason).arrived).message = reasonText reason := by
    rw [unmarshalResult, Message.arrived_body, rejectResponse_body]
  simp only [ClassicDialer.acceptResult, hreply, htype, hsuccess, hmessage,
    getRejectClass_rejectResponse, ne_eq, not_true_eq_false, decide_false, Bool.not_true,
    Bool.or_false, Bool.false_eq_true, if_false, Bool.not_false, if_true]

section

variable {σ : Type} [ByteSource σ]

/-- The dialer's error, once the refusal has arrived. -/
theorem sendHelloOver_rejectResponse {reason : Option GoError} {refusal : Outgoing}
    (hrefusal : refusal.msg = rejectResponse reason) (hfit : refusal.dataLen ≤ maxInt32)
    {d : ClassicDialer} {headers : Headers} {request : Message}
    (hrequest : d.hello headers = .ok request) {peer : Peer σ} (hdeadline : peer.setDeadline = none)
    (htx : peer.tx = none) {rest : Bytes}
    (hstream : ByteSource.remaining peer.stream = refusal.frame ++ rest) (ref : ℕ) :
    d.sendHelloOver headers ref peer =
      .error (.nonRetryable (.rejected ⟨GoError.getRejectClass reason, reasonText reason⟩)) := by
  have hsend := (sendHello_frame ref peer.commonName request refusal hfit hstream).2
  rw [hrefusal, acceptResult_rejectResponse] at hsend
  simp only [ClassicDialer.sendHelloOver, hdeadline, hrequest, htx, hsend]
  rfl

/-- The loop makes one dial at most, or goes round again with another version. -/
theorem ClassicDialer.createLoop_cases (d : ClassicDialer) (headers : Headers)
    (attempts : ℕ → Attempt σ) (tryCount : ℕ) (version : UInt32) :
    (d.createLoop headers attempts tryCount version).2.length ≤ 1 ∨
      ∃ retryVersion, d.createLoop headers attempts tryCount version =
        ((d.createLoop headers attempts (tryCount + 1) retryVersion).1,
          version :: (d.createLoop headers attempts (tryCount + 1) retryVersion).2) := by
  rw [createLoop]
  split
  · split
    · exact .inl le_rfl
    · split
      · exact .inl le_rfl
      · split
        · exact .inl le_rfl
        · split
          · exact .inl le_rfl
          · next retryVersion _ => exact .inr ⟨retryVersion, rfl⟩
  · exact .inl (Nat.zero_le 1)

/-- A final error ends the loop: whichever dial meets a peer that gives one is the last, and its
error is returned. -/
theorem ClassicDialer.createLoop_of_nonRetryable {d : ClassicDialer} {headers : Headers}
    {attempts : ℕ → Attempt σ} {peer : Peer σ} {err : GoError}
    (hsend : ∀ ref, d.sendHelloOver headers ref peer = .error err)
    (hfinal : err.isNonRetryable = true) : ∀ (k tryCount : ℕ) (version : UInt32),
    k < (d.createLoop headers attempts tryCount version).2.length →
    (attempts (tryCount + k)).dial = .ok peer →
    (d.createLoop headers attempts tryCount version).1 = .error err ∧
      (d.createLoop headers attempts tryCount version).2.length = k + 1 := by
  intro k
  induction k with
  | zero =>
    intro tryCount version hmade hdial
    rw [Nat.add_zero] at hdial
    rw [createLoop] at hmade ⊢
    split at hmade
    · next hbefore => simp [hbefore, hdial, hsend, hfinal]
    · simp at hmade
  | succ k ih =>
    intro tryCount version hmade hdial
    rcases d.createLoop_cases headers attempts tryCount version with hone | ⟨retryVersion, hloop⟩
    · omega
    · rw [hloop] at hmade ⊢
      have hdial' : (attempts (tryCount + 1 + k)).dial = .ok peer := by
        rw [← hdial]; congr 2; omega
      obtain ⟨hresult, hdials⟩ := ih (tryCount + 1) retryVersion (Nat.lt_of_succ_lt_succ hmade) hdial'
      exact ⟨hresult, congrArg (· + 1) hdials⟩

end

/-- **Refusals arrive intact.**  Let the refusal of a hello for any reason be written to a dialer
that has sent its hello.  Then the hello fails with the class and the text of the reason, marked as
final; a dial that meets it returns that error and dials no further; and the listener's underlay is
closed, whatever came of the write. -/
theorem rejectHello_arrives {σ : Type} [ByteSource σ] (reason : Option GoError)
    (refusal : Outgoing) (hrefusal : refusal.msg = rejectResponse reason)
    (hfit : refusal.dataLen ≤ maxInt32) (d : ClassicDialer) (headers : Headers) (request : Message)
    (hrequest : d.hello headers = .ok request) (peer : Peer σ) (hdeadline : peer.setDeadline = none)
    (htx : peer.tx = none) (rest : Bytes)
    (hstream : ByteSource.remaining peer.stream = refusal.frame ++ rest) :
    let err : GoError :=
      .nonRetryable (.rejected ⟨GoError.getRejectClass reason, reasonText reason⟩)
    (∀ ref, d.sendHelloOver headers ref peer = .error err) ∧
      (∀ attempts k, k < (d.createWithHeaders headers attempts).2.length →
        (attempts k).dial = .ok peer →
        (d.createWithHeaders headers attempts).1 = .error err ∧
          (d.createWithHeaders headers attempts).2.length = k + 1) ∧
      (∀ txErr closeErr, (rejectHello reason txErr closeErr).1 =
        [.tx (rejectResponse reason), .close]) := by
  intro err
  have hsend := sendHelloOver_rejectResponse hrefusal hfit hrequest hdeadline htx hstream
  refine ⟨hsend, fun attempts k hmade hdial => ?_, fun _ _ => rfl⟩
  exact ClassicDialer.createLoop_of_nonRetryable hsend rfl k 0 2 hmade (by rwa [Nat.zero_add])

/-- A refusal that wraps a class which no constant names. -/
def wrappedReason : GoError := .other (str "no room: full") [.rejected ⟨-7, str "full"⟩]

def wrappedRefusal : Outgoing where
  msg := rejectResponse (some wrappedReason)
  order := ⟨[⟨1, [255, 255, 255, 255]⟩, ⟨2, [0]⟩, ⟨13, [249, 255, 255, 255]⟩], by decide⟩

/-- The dialer of `plainHello` meets that refusal, byte by byte, on its first dial. -/
theorem rejectHello_arrives_wrapped :
    let peer : Peer Chopped :=
      ⟨str "listener", none, none, none, ⟨wrappedRefusal.frame, fun _ => (1, false)⟩⟩
    let result := plainDialer.createWithHeaders ∅ fun _ => ⟨true, .ok peer⟩
    result.1 = .error (.nonRetryable (.rejected ⟨-7, str "no room: full"⟩)) ∧
      result.2.length = 1 := by
  intro peer result
  obtain ⟨hsend, hcreate, -⟩ := rejectHello_arrives (some wrappedReason) wrappedRefusal rfl (by decide)
    plainDialer ∅ plainHello rfl peer rfl rfl [] (List.append_nil _).symm
  have hmade : 0 < result.2.length := by
    simp only [result, ClassicDialer.createWithHeaders]
    rw [ClassicDialer.createLoop]
    simp [hsend, GoError.isNonRetryable, GoError.as]
  exact hcreate (fun _ => ⟨true, .ok peer⟩) 0 hmade rfl

end ZitiChannel
