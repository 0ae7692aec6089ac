import ZitiChannel.ClassicDial
import ZitiChannel.Fragmentation
import ZitiChannel.Negotiation

/-!
# The handshake over an existing connection

An underlay can also be made of a connection that is already there.  Both ends run a hello over it:
one sends, the other reads it under the bounds for hellos and answers.  The connection was not made
here and is used afterwards, by the channel or by whoever it is given back to, so it matters what is
left on it: bytes behind the hello and behind the answer, a deadline, a close.

The listener chooses the connection id and writes it over its configured headers, and the dialer
takes it from the answer.  So here the ends always agree on it.  As in the classic handshake, a
configured header under the key of the success turns the answer into a refusal.

`Create` of the dialer would try once more with another version.  It never does: the version it
would change to is the one it starts with.

## Main definitions

* `ExistingPeer`, `ExistingRun` — a connection as `Create` finds it, and what `Create` does.
* `ExistingConnDialer.create`, `ExistingConnListener.create`.

## Main results

* `existing_conn_handshake` — **two ends over one connection.**
* `existing_conn_any_peer` — **what `Create` leaves behind, whatever is at the other end.**

The sources are `existing_conn_dialer.go`, `existing_conn_listener.go` and `existing_conn_impl.go`.
-/

namespace ZitiChannel

open ByteStream ByteSource

/-! ### Connections -/

/-- What is called on a connection. -/
inductive ConnOp
  | setDeadline
  /-- `SetDeadline` with the zero time. -/
  | clearDeadline
  | write (data : Bytes)
  | close
  deriving DecidableEq

def ConnOp.isWrite : ConnOp → Bool
  | .write _ => true
  | _ => false

/-- A connection, and the errors of what is called on it, by how many tries are left. -/
structure ExistingPeer (σ : Type) where
  setDeadline : ℕ → Option GoError
  write : ℕ → Option GoError
  /-- What the other end sends. -/
  stream : σ

/-- What a call of `Create` comes to. -/
structure ExistingRun (σ : Type) where
  result : Except GoError Underlay
  ops : List ConnOp
  /-- What is left to read. -/
  stream : σ

/-- The call that sets the deadline, if there is a timeout. -/
def deadlineOps (timeout : Bool) : List ConnOp := if timeout then [.setDeadline] else []

/-- The call that clears it. -/
def clearOps (timeout : Bool) : List ConnOp := if timeout then [.clearDeadline] else []

/-! What a timeout adds around other calls. -/

theorem getLast_around {timeout : Bool} {ops : List ConnOp} (hops : .setDeadline ∉ ops)
    (hmem : .setDeadline ∈ deadlineOps timeout ++ ops ++ clearOps timeout) :
    (deadlineOps timeout ++ ops ++ clearOps timeout).getLast? = some .clearDeadline := by
  cases timeout with
  | false => simp [deadlineOps, clearOps, hops] at hmem
  | true => simp [clearOps]

theorem close_mem_around (timeout : Bool) (ops : List ConnOp) :
    .close ∈ deadlineOps timeout ++ ops ++ clearOps timeout ↔ .close ∈ ops := by
  cases timeout <;> simp [deadlineOps, clearOps]

theorem filter_isWrite_around (timeout : Bool) (ops : List ConnOp) :
    (deadlineOps timeout ++ ops ++ clearOps timeout).filter ConnOp.isWrite =
      ops.filter ConnOp.isWrite := by
  cases timeout <;> simp [deadlineOps, clearOps, ConnOp.isWrite]

/-- `errors.Wrap`. -/
def GoError.wrap (err : GoError) (text : String) : GoError :=
  .other (str text ++ str ": " ++ err.error) [err]

/-- The magic of the version that exists only for tests. -/
def magicV3 : Bytes := [0x03, 0x06, 0x09, 0x0d]

/-- The magic that `newExistingImpl` marshals with. -/
def magicOf (version : UInt32) : Bytes := if version = 3 then magicV3 else magicV2

/-! ### The dialer -/

structure ExistingConnDialer where
  id : GoString
  headers : Headers

namespace ExistingConnDialer

variable {σ : Type} [ByteSource σ] (self : ExistingConnDialer)

def hello : Message := (newHello self.id self.headers).setSequence helloSequence

/-- What `sendHello` makes of the answer. -/
def acceptResult (ref : ℕ) (response : Message) : Except GoError Underlay :=
  if !response.isReplyingTo helloSequence || response.contentType ≠ contentTypeResultType then
    .error ((HelloError.synchronization response.replyFor).toGoError [])
  else
    let result := unmarshalResult response
    if !result.success then .error (.new result.message)
    else .ok ⟨ref, self.id, response.headers.index connectionIdHeader, response.headers⟩

def sendHello (ref : ℕ) (order : Ranging.Order self.hello.putReplyFor.headers) (version : UInt32)
    (writeErr : Option GoError) (stream : σ) : ExistingRun σ :=
  let data := marshalWithVersion self.hello (magicOf version) order
  match writeErr with
  -- the connection itself is closed, not the underlay
  | some err => ⟨.error err, [.write data, .close], stream⟩
  | none =>
      match readV2 stream with
      | (.error err, stream) => ⟨.error (.wire err), [.write data], stream⟩
      | (.ok response, stream) => ⟨self.acceptResult ref response, [.write data], stream⟩

/-- The loop of `Create`, with the number of tries that are left after this one. -/
def createLoop (ref : ℕ) (order : ℕ → Ranging.Order self.hello.putReplyFor.headers) (timeout : Bool)
    (peer : ExistingPeer σ) : ℕ → UInt32 → σ → ExistingRun σ
  | left, version, stream =>
      match (if timeout then peer.setDeadline left else none) with
      | some err => ⟨.error err, [.setDeadline], stream⟩
      | none =>
          let run := self.sendHello ref (order left) version (peer.write left) stream
          let ops := deadlineOps timeout ++ run.ops
          match run.result, left with
          | .ok underlay, _ => ⟨.ok underlay, ops, run.stream⟩
          | .error err, 0 => ⟨.error err, ops, run.stream⟩
          | .error err, left + 1 =>
              let retryVersion := err.getRetryVersion.1
              if retryVersion ≠ version then
                let again := createLoop ref order timeout peer left retryVersion run.stream
                { again with ops := ops ++ again.ops }
              else ⟨.error err, ops, run.stream⟩

/-- `Create`.  The deadline is cleared in the end, whether it was set or not. -/
def create (ref : ℕ) (order : ℕ → Ranging.Order self.hello.putReplyFor.headers) (timeout : Bool)
    (peer : ExistingPeer σ) : ExistingRun σ :=
  let run := self.createLoop ref order timeout peer 1 2 peer.stream
  { run with ops := run.ops ++ [.clearDeadline] }

end ExistingConnDialer

/-! ### The listener -/

structure ExistingConnListener where
  headers : Headers

namespace ExistingConnListener

variable {σ : Type} [ByteSource σ] (self : ExistingConnListener)

/-- Read the hello.  If there is none, the connection is closed. -/
def receiveHello (stream : σ) : Except GoError Message × List ConnOp × σ :=
  match readHello stream with
  | (.error err, stream) =>
      (.error (.new (str "receive error (" ++ err.error ++ str ")")),
        (if err = .badMagicNumber then [.write writeUnknownVersionResponse] else []) ++ [.close],
        stream)
  | (.ok request, stream) =>
      if request.contentType ≠ contentTypeHelloType then
        (.error (.new (str s!"unexpected content type [{request.contentType}]")), [.close], stream)
      else (.ok request, [], stream)

def ackHello (connectionId : GoString) (request : Message) (success : Bool) (message : GoString) :
    Message :=
  let response := newResult success message
  let h : Headers := response.headers.copy self.headers
  let h : Headers := Finmap.insert connectionIdHeader connectionId h
  ({ response with headers := h }.setSequence helloSequence).replyTo request

/-- `Create`, between setting the deadline and clearing it. -/
def accept (ref : ℕ) (connectionId : GoString)
    (order : ∀ m : Message, Ranging.Order m.putReplyFor.headers) (peer : ExistingPeer σ) :
    ExistingRun σ :=
  match receiveHello peer.stream with
  | (.error err, ops, stream) => ⟨.error (err.wrap "error receiving hello"), ops, stream⟩
  | (.ok request, ops, stream) =>
      let hello := unmarshalHello request
      let ack := self.ackHello connectionId request true []
      let ops := ops ++ [.write (marshalV2 ack (order ack))]
      match peer.write 0 with
      | some err => ⟨.error (err.wrap "unable to acknowledge hello"), ops, stream⟩
      | none => ⟨.ok ⟨ref, hello.idToken, connectionId, hello.headers⟩, ops, stream⟩

/-- `Create`, with what `NextConnectionId` returns. -/
def create (ref : ℕ) (nextConnectionId : Except GoError GoString)
    (order : ∀ m : Message, Ranging.Order m.putReplyFor.headers) (timeout : Bool)
    (peer : ExistingPeer σ) : ExistingRun σ :=
  match nextConnectionId with
  | .error err => ⟨.error (err.wrap "error getting connection id"), [], peer.stream⟩
  | .ok connectionId =>
      if timeout then
        match peer.setDeadline 0 with
        | some err =>
            ⟨.error (err.wrap "could not set deadline on conn"), [.setDeadline, .clearDeadline],
              peer.stream⟩
        | none =>
            let run := self.accept ref connectionId order peer
            { run with ops := [.setDeadline] ++ run.ops ++ [.clearDeadline] }
      else self.accept ref connectionId order peer

end ExistingConnListener

/-! ### Hellos on a connection -/

section

variable {σ : Type} [ByteSource σ]

/-- The bounds for a hello. -/
def Outgoing.FitsHello (o : Outgoing) : Prop :=
  (marshalHeaders o.order.entries).length ≤ 16384 ∧ o.msg.body.length ≤ 4192

/-- **A hello** that keeps the bounds is read, and nothing more is taken; one that does not is not
read as one. -/
theorem readHello_frame {s : σ} {o : Outgoing} {rest : Bytes} (hfit : o.dataLen ≤ maxInt32)
    (hs : remaining s = o.frame ++ rest) :
    (o.FitsHello → ∃ next, remaining next = rest ∧ readHello s = (.ok o.received, next)) ∧
    (¬ o.FitsHello → ∃ err, (readHello s).1 = .error err ∧ err ≠ .badMagicNumber) := by
  obtain ⟨next, hnext, hread⟩ := readV2_frame hfit hs
  have hdec : decodeV2 (remaining s) = .ok (o.received, rest) := by
    have hok := (readV2_agrees s).ok (m := o.received) (by rw [hread])
    rwa [hread, hnext] at hok
  have hsection : remaining s = messageSection o.msg.contentType o.msg.sequence
      (Int32.ofNat (marshalHeaders o.order.entries).length) (Int32.ofNat o.msg.body.length) ++
        (marshalHeaders o.order.entries ++ o.msg.body ++ rest) := by
    rw [hs, Outgoing.frame, marshalV2_eq, List.append_assoc]
  have hbounds : (declaredHeaders (remaining s) ≤ 16384 ∧ declaredBody (remaining s) ≤ 4192) ↔
      o.FitsHello := by
    unfold Outgoing.dataLen at hfit
    have hheaders : declaredHeaders (remaining s) =
        uint32 (putInt32 (Int32.ofNat (marshalHeaders o.order.entries).length)) := by
      rw [hsection]
      rfl
    have hbody : declaredBody (remaining s) =
        uint32 (putInt32 (Int32.ofNat o.msg.body.length)) := by
      rw [hsection]
      rfl
    rw [hheaders, hbody, UInt32.le_iff_toNat_le, UInt32.le_iff_toNat_le,
      toNat_uint32_putInt32_ofNat (by omega), toNat_uint32_putInt32_ofNat (by omega)]
    rfl
  have hagrees := readHello_agrees s
  constructor
  · intro hfits
    rw [(decodeHello_ok_iff _ _).mpr ⟨hdec, hbounds.mpr hfits⟩] at hagrees
    exact ⟨(readHello s).2, hagrees.2, Prod.ext hagrees.1 rfl⟩
  · intro hfits
    cases hhello : (readHello s).1 with
    | ok m =>
      have hok := (decodeHello_ok_iff _ _).mp (hagrees.ok hhello)
      exact absurd (hbounds.mp hok.2) hfits
    | error err =>
      refine ⟨err, rfl, ?_⟩
      rintro rfl
      have hmagic := (decodeHello_badMagicNumber_iff _).mp (hagrees.badMagicNumber_iff.mp hhello)
      rw [hsection] at hmagic
      exact hmagic.2 rfl

end

/-! ### What a call comes to -/

namespace ExistingConnDialer

variable {σ : Type} [ByteSource σ] (d : ExistingConnDialer)

/-- **There is no second try**: the only version to change to is the one that was tried. -/
theorem createLoop_two (ref : ℕ) (order : ℕ → Ranging.Order d.hello.putReplyFor.headers)
    (timeout : Bool) (peer : ExistingPeer σ) (left : ℕ) (stream : σ) :
    d.createLoop ref order timeout peer left 2 stream =
      match (if timeout then peer.setDeadline left else none) with
      | some err => ⟨.error err, [.setDeadline], stream⟩
      | none =>
          let run := d.sendHello ref (order left) 2 (peer.write left) stream
          ⟨run.result, deadlineOps timeout ++ run.ops, run.stream⟩ := by
  have hversion : ∀ err : GoError, err.getRetryVersion.1 = 2 := by
    intro err
    unfold GoError.getRetryVersion
    split <;> rfl
  unfold createLoop
  split
  · rfl
  · dsimp only
    cases hrun : (d.sendHello ref (order left) 2 (peer.write left) stream).result with
    | ok u => rfl
    | error err =>
      cases left with
      | zero => rfl
      | succ left => simp only [hversion, ne_eq, not_true_eq_false, if_false]

/-- What `Create` can come to. -/
theorem create_cases {ref : ℕ} {order : ℕ → Ranging.Order d.hello.putReplyFor.headers}
    {timeout : Bool} {peer : ExistingPeer σ} {P : ExistingRun σ → Prop}
    (deadline : ∀ err, timeout = true → peer.setDeadline 1 = some err →
      P ⟨.error err, [.setDeadline, .clearDeadline], peer.stream⟩)
    (unwritten : ∀ err, (timeout = true → peer.setDeadline 1 = none) → peer.write 1 = some err →
      P ⟨.error err, deadlineOps timeout ++
        [.write (marshalV2 d.hello (order 1)), .close] ++ [.clearDeadline], peer.stream⟩)
    (unread : ∀ err next, peer.write 1 = none → readV2 peer.stream = (.error err, next) →
      P ⟨.error (.wire err), deadlineOps timeout ++
        [.write (marshalV2 d.hello (order 1))] ++ [.clearDeadline], next⟩)
    (answered : ∀ response next, (timeout = true → peer.setDeadline 1 = none) →
      peer.write 1 = none → readV2 peer.stream = (.ok response, next) →
      P ⟨d.acceptResult ref response, deadlineOps timeout ++
        [.write (marshalV2 d.hello (order 1))] ++ [.clearDeadline], next⟩) :
    P (d.create ref order timeout peer) := by
  unfold create
  rw [d.createLoop_two]
  split
  · next err herr =>
    split at herr
    · next htimeout => exact deadline err htimeout herr
    · cases herr
  · next hnone =>
    have hset : timeout = true → peer.setDeadline 1 = none := by
      rintro rfl
      exact hnone
    unfold sendHello
    cases hwrite : peer.write 1 with
    | some err => exact unwritten err hset hwrite
    | none =>
      cases hread : readV2 peer.stream with
      | mk result next =>
        cases result with
        | error err => exact unread err next hwrite hread
        | ok response => exact answered response next hset hwrite hread

theorem acceptResult_ok {ref : ℕ} {response : Message} {u : Underlay}
    (h : d.acceptResult ref response = .ok u) :
    response.contentType = contentTypeResultType ∧ response.isReplyingTo helloSequence = true ∧
      (unmarshalResult response).success = true ∧
      u = ⟨ref, d.id, response.headers.index connectionIdHeader, response.headers⟩ := by
  unfold acceptResult at h
  dsimp only at h
  split at h
  · cases h
  · next hresult =>
    split at h
    · cases h
    · next hsuccess =>
      cases h
      simp only [Bool.or_eq_true, Bool.not_eq_true', decide_eq_true_eq, not_or, not_not,
        Bool.not_eq_false] at hresult
      exact ⟨hresult.2, hresult.1, by simpa using hsuccess, rfl⟩

/-- What the dialer leaves behind: its last call clears the deadline, which may fail and is then
only logged; there is at most one hello, and a closed connection only if the hello could not be
written.  An underlay comes from the answer, which is a result, replies to the hello and tells of
success. -/
structure Leaves (ref : ℕ) (order : ℕ → Ranging.Order d.hello.putReplyFor.headers) (timeout : Bool)
    (peer : ExistingPeer σ) (run : ExistingRun σ) : Prop where
  deadline : run.ops.getLast? = some .clearDeadline
  writes : run.ops.filter ConnOp.isWrite = [] ∨
    run.ops.filter ConnOp.isWrite = [.write (marshalV2 d.hello (order 1))]
  closed : .close ∈ run.ops ↔
    (timeout = true → peer.setDeadline 1 = none) ∧ (peer.write 1).isSome = true
  accepted : ∀ u, run.result = .ok u → ∃ response, readV2 peer.stream = (.ok response, run.stream) ∧
    response.contentType = contentTypeResultType ∧ response.isReplyingTo helloSequence = true ∧
    (unmarshalResult response).success = true ∧
    u = ⟨ref, d.id, response.headers.index connectionIdHeader, response.headers⟩

theorem leaves_create (ref : ℕ) (order : ℕ → Ranging.Order d.hello.putReplyFor.headers)
    (timeout : Bool) (peer : ExistingPeer σ) :
    d.Leaves ref order timeout peer (d.create ref order timeout peer) := by
  refine d.create_cases ?_ ?_ ?_ ?_
  · intro err htimeout herr
    exact ⟨rfl, .inl rfl, by simp [htimeout, herr], fun u hu => by cases hu⟩
  · intro err hset hwrite
    refine ⟨by simp, .inr ?_, ?_, fun u hu => by cases hu⟩
    · cases timeout <;> rfl
    · simpa [hwrite] using hset
  · intro err next hwrite _
    refine ⟨by simp, .inr ?_, ?_, fun u hu => by cases hu⟩
    · cases timeout <;> rfl
    · cases timeout <;> simp [hwrite, deadlineOps]
  · intro response next _ hwrite hread
    refine ⟨by simp, .inr ?_, ?_, fun u hu => ⟨response, hread, d.acceptResult_ok hu⟩⟩
    · cases timeout <;> rfl
    · cases timeout <;> simp [hwrite, deadlineOps]

end ExistingConnDialer

namespace ExistingConnListener

variable {σ : Type} [ByteSource σ] (l : ExistingConnListener)

/-- What the listener leaves behind: if it has set a deadline, its last call clears it, which may
fail and is then only logged; and a closed connection exactly if it looked for a hello and found
none.  Then it has told the peer its versions if what it found has another magic.  An underlay
comes from a hello, which was answered once and behind which nothing was read. -/
structure Leaves (ref : ℕ) (nextConnectionId : Except GoError GoString)
    (order : ∀ m : Message, Ranging.Order m.putReplyFor.headers) (timeout : Bool)
    (peer : ExistingPeer σ) (run : ExistingRun σ) : Prop where
  deadline : .setDeadline ∈ run.ops → run.ops.getLast? = some .clearDeadline
  closed : .close ∈ run.ops ↔ (∃ id, nextConnectionId = .ok id) ∧
    (timeout = true → peer.setDeadline 0 = none) ∧
    ∀ request, (readHello peer.stream).1 = .ok request → request.contentType ≠ contentTypeHelloType
  versions : .close ∈ run.ops → run.ops.filter ConnOp.isWrite =
    if (readHello peer.stream).1 = .error .badMagicNumber then [.write writeUnknownVersionResponse]
    else []
  accepted : ∀ u, run.result = .ok u → ∃ request connectionId,
    readHello peer.stream = (.ok request, run.stream) ∧
    request.contentType = contentTypeHelloType ∧ nextConnectionId = .ok connectionId ∧
    u = ⟨ref, request.body, connectionId, request.headers⟩ ∧
    run.ops.filter ConnOp.isWrite =
      [.write (marshalV2 (l.ackHello connectionId request true [])
        (order (l.ackHello connectionId request true [])))]

/-- What `accept` can come to. -/
theorem accept_cases {ref : ℕ} {connectionId : GoString}
    {order : ∀ m : Message, Ranging.Order m.putReplyFor.headers} {peer : ExistingPeer σ}
    {P : ExistingRun σ → Prop}
    (unread : ∀ err err' next, readHello peer.stream = (.error err, next) →
      P ⟨.error err',
        (if err = .badMagicNumber then [.write writeUnknownVersionResponse] else []) ++ [.close],
        next⟩)
    (other : ∀ request err next, readHello peer.stream = (.ok request, next) →
      request.contentType ≠ contentTypeHelloType → P ⟨.error err, [.close], next⟩)
    (answered : ∀ request result next, readHello peer.stream = (.ok request, next) →
      request.contentType = contentTypeHelloType →
      (∀ u, result = .ok u → u = ⟨ref, request.body, connectionId, request.headers⟩) →
      (peer.write 0 = none → result = .ok ⟨ref, request.body, connectionId, request.headers⟩) →
      P ⟨result, [.write (marshalV2 (l.ackHello connectionId request true [])
        (order (l.ackHello connectionId request true [])))], next⟩) :
    P (l.accept ref connectionId order peer) := by
  unfold accept receiveHello
  cases hread : readHello peer.stream with
  | mk received next =>
    cases received with
    | error err => exact unread err _ next hread
    | ok request =>
      dsimp only
      by_cases htype : request.contentType = contentTypeHelloType
      · rw [if_neg (not_not.mpr htype)]
        cases hwrite : peer.write 0 with
        | some err =>
          refine answered request (.error (err.wrap "unable to acknowledge hello")) next hread htype
            (fun u hu => by cases hu) (fun h => ?_)
          rw [hwrite] at h
          cases h
        | none =>
          exact answered request (.ok ⟨ref, request.body, connectionId, request.headers⟩) next hread
            htype (fun u hu => by cases hu; rfl) fun _ => rfl
      · rw [if_pos htype]
        exact other request _ next hread htype

/-- What `Create` does around `accept`. -/
theorem create_ok (ref : ℕ) (connectionId : GoString)
    (order : ∀ m : Message, Ranging.Order m.putReplyFor.headers) {timeout : Bool}
    {peer : ExistingPeer σ} (hset : timeout = true → peer.setDeadline 0 = none) :
    l.create ref (.ok connectionId) order timeout peer =
      { l.accept ref connectionId order peer with
        ops := deadlineOps timeout ++ (l.accept ref connectionId order peer).ops ++
          clearOps timeout } := by
  unfold create
  cases timeout with
  | false => simp [deadlineOps, clearOps]
  | true =>
    rw [hset rfl]
    rfl

/-- What is left behind when the hello is looked for. -/
theorem leaves_accept (ref : ℕ) (connectionId : GoString)
    (order : ∀ m : Message, Ranging.Order m.putReplyFor.headers) {timeout : Bool}
    {peer : ExistingPeer σ} (hset : timeout = true → peer.setDeadline 0 = none) :
    l.Leaves ref (.ok connectionId) order timeout peer
      (l.create ref (.ok connectionId) order timeout peer) := by
  rw [l.create_ok ref connectionId order hset]
  refine l.accept_cases (P := fun run => l.Leaves ref (.ok connectionId) order timeout peer
    { run with ops := deadlineOps timeout ++ run.ops ++ clearOps timeout }) ?_ ?_ ?_
  · intro err err' next hread
    refine ⟨getLast_around ?_, ?_, fun _ => ?_, fun u hu => by cases hu⟩
    · split <;> simp
    · rw [close_mem_around]
      simpa [hread] using hset
    · rw [filter_isWrite_around]
      simp only [hread, Except.error.injEq]
      split <;> rfl
  · intro request err next hread htype
    refine ⟨getLast_around (by simp), ?_, fun _ => ?_, fun u hu => by cases hu⟩
    · rw [close_mem_around]
      simpa [hread, htype] using hset
    · rw [filter_isWrite_around]
      simp [hread, ConnOp.isWrite]
  · intro request result next hread htype hok _
    refine ⟨getLast_around (by simp), ?_, fun h => ?_, fun u hu => ?_⟩
    · rw [close_mem_around]
      simp [hread, htype]
    · rw [close_mem_around] at h
      simp at h
    · rw [filter_isWrite_around]
      exact ⟨request, connectionId, hread, htype, rfl, hok u hu, rfl⟩

theorem leaves_create (ref : ℕ) (nextConnectionId : Except GoError GoString)
    (order : ∀ m : Message, Ranging.Order m.putReplyFor.headers) (timeout : Bool)
    (peer : ExistingPeer σ) : l.Leaves ref nextConnectionId order timeout peer
      (l.create ref nextConnectionId order timeout peer) := by
  cases nextConnectionId with
  | error err =>
    have hcreate : l.create ref (.error err) order timeout peer =
        ⟨.error (err.wrap "error getting connection id"), [], peer.stream⟩ := rfl
    rw [hcreate]
    exact ⟨fun h => by simp at h, by simp, fun h => by simp at h, fun u hu => by cases hu⟩
  | ok connectionId =>
    by_cases hset : timeout = true → peer.setDeadline 0 = none
    · exact l.leaves_accept ref connectionId order hset
    · obtain ⟨rfl, hne⟩ := Classical.not_imp.mp hset
      obtain ⟨err, herr⟩ := Option.ne_none_iff_exists'.mp hne
      have hcreate : l.create ref (.ok connectionId) order true peer =
          ⟨.error (err.wrap "could not set deadline on conn"), [.setDeadline, .clearDeadline],
            peer.stream⟩ := by
        simp only [create, if_true, herr]
      rw [hcreate]
      exact ⟨fun _ => rfl, by simp [herr], fun h => by simp at h, fun u hu => by cases hu⟩

/-! ### The answer -/

theorem lookup_ackHello (connectionId : GoString) (request : Message) (key : Int32) :
    (l.ackHello connectionId request true []).headers.lookup key =
      if key = connectionIdHeader then some connectionId
      else if key = reflectedHeader ∧ (request.headers.lookup reflectedHeader).isSome = true then
        request.headers.lookup reflectedHeader
      else (l.headers.lookup key).or ((newResult true []).headers.lookup key) := by
  have hbase : ∀ key, (Finmap.insert connectionIdHeader connectionId
      (Headers.copy (newResult true []).headers l.headers)).lookup key =
        if key = connectionIdHeader then some connectionId
        else (l.headers.lookup key).or ((newResult true []).headers.lookup key) := by
    intro key
    split
    · next hkey => rw [hkey, Finmap.lookup_insert]
    · next hkey => rw [Finmap.lookup_insert_of_ne _ hkey, Headers.lookup_copy]
  unfold ackHello Message.replyTo
  dsimp only [Message.setSequence]
  cases hreflected : request.headers.lookup reflectedHeader with
  | none =>
    simp only [Option.isSome_none, Bool.false_eq_true, and_false, if_false]
    exact hbase key
  | some value =>
    by_cases hkey : key = reflectedHeader
    · subst hkey
      rw [Finmap.lookup_insert, if_neg (by decide), if_pos ⟨rfl, rfl⟩]
    · rw [Finmap.lookup_insert_of_ne _ hkey]
      simp only [hkey, false_and, if_false]
      exact hbase key

/-- The value under `resultSuccessHeader` in the answer: that of the listener's own headers, if they
have one. -/
def successValue : Bytes := (l.headers.lookup resultSuccessHeader).getD [1]

theorem success_ackHello (connectionId : GoString) (request : Message) :
    (unmarshalResult (l.ackHello connectionId request true []).arrived).success =
      decide (l.successValue.head? = some 1) := by
  have hnew : (newResult true []).headers.lookup resultSuccessHeader = some [1] := rfl
  rw [unmarshalResult, Headers.getBoolHeader_fst, Message.index_arrived _ (by decide),
    Headers.index, l.lookup_ackHello, if_neg (by decide), if_neg (by simp [reflectedHeader,
      resultSuccessHeader]), hnew, Option.getD_or, Option.getD_some]
  rfl

end ExistingConnListener

theorem ExistingConnDialer.headers_hello (d : ExistingConnDialer) :
    d.hello.headers = d.headers := by
  show d.headers ∪ ∅ = d.headers
  exact Finmap.union_empty

/-- What the dialer makes of the listener's answer. -/
theorem ExistingConnDialer.acceptResult_ackHello (d : ExistingConnDialer)
    (l : ExistingConnListener) (ref : ℕ) (connectionId : GoString) {request : Message}
    (hsequence : request.sequence = helloSequence) :
    d.acceptResult ref (l.ackHello connectionId request true []).arrived =
      if l.successValue.head? = some 1 then
        .ok ⟨ref, d.id, connectionId, (l.ackHello connectionId request true []).arrived.headers⟩
      else .error (.new []) := by
  have hreply : (l.ackHello connectionId request true []).arrived.isReplyingTo helloSequence =
      true := decide_eq_true (Message.replyFor_arrived (congrArg some hsequence))
  have htype : (l.ackHello connectionId request true []).arrived.contentType =
      contentTypeResultType := by
    rw [Message.arrived_contentType]
    rfl
  have hid : (l.ackHello connectionId request true []).arrived.headers.index connectionIdHeader =
      connectionId := by
    rw [Message.index_arrived _ (by decide), Headers.index, l.lookup_ackHello, if_pos rfl,
      Option.getD_some]
  have hbody :
      (unmarshalResult (l.ackHello connectionId request true []).arrived).message = [] := by
    show (l.ackHello connectionId request true []).arrived.body = []
    rw [Message.arrived_body]
    rfl
  unfold acceptResult
  simp only [hreply, htype, hid, hbody, l.success_ackHello, ne_eq, not_true_eq_false, decide_false,
    Bool.not_true, Bool.or_false, Bool.false_eq_true, if_false]
  by_cases hsuccess : l.successValue.head? = some 1
  · simp [hsuccess]
  · simp [hsuccess]

/-! ### Both ends -/

section

variable {σ : Type} [ByteSource σ]

/-- The dialer, if nothing fails on its side and the listener's answer comes. -/
theorem ExistingConnDialer.create_answered (d : ExistingConnDialer) (l : ExistingConnListener)
    (connectionId : GoString) (order : ℕ → Ranging.Order d.hello.putReplyFor.headers)
    (ack : Outgoing) (hack : ack.msg = l.ackHello connectionId d.hello true [])
    (hfit : ack.dataLen ≤ maxInt32) {timeout : Bool} {peer : ExistingPeer σ} {rest : Bytes}
    (hset : timeout = true → peer.setDeadline 1 = none) (hwrite : peer.write 1 = none)
    (hstream : remaining peer.stream = ack.frame ++ rest) :
    let run := d.create 0 order timeout peer
    run.ops.filter ConnOp.isWrite = [.write (marshalV2 d.hello (order 1))] ∧
      .close ∉ run.ops ∧ remaining run.stream = rest ∧
      run.result = if l.successValue.head? = some 1 then
        .ok ⟨0, d.id, connectionId, ack.received.headers⟩ else .error (.new []) := by
  obtain ⟨next, hnext, hread⟩ := readV2_frame hfit hstream
  refine d.create_cases (P := fun run : ExistingRun σ =>
    run.ops.filter ConnOp.isWrite = [.write (marshalV2 d.hello (order 1))] ∧
      .close ∉ run.ops ∧ remaining run.stream = rest ∧
      run.result = if l.successValue.head? = some 1 then
        .ok ⟨0, d.id, connectionId, ack.received.headers⟩ else .error (.new [])) ?_ ?_ ?_ ?_
  · intro err htimeout herr
    rw [hset htimeout] at herr
    cases herr
  · intro err _ herr
    rw [hwrite] at herr
    cases herr
  · intro err next' _ hread'
    rw [hread] at hread'
    cases hread'
  · intro response next' _ _ hread'
    rw [hread] at hread'
    cases hread'
    refine ⟨by cases timeout <;> rfl, by cases timeout <;> simp [deadlineOps], hnext, ?_⟩
    have hreceived : ack.received = (l.ackHello connectionId d.hello true []).arrived := by
      rw [← hack]
      rfl
    rw [hreceived]
    exact d.acceptResult_ackHello l 0 connectionId rfl

/-- The listener, if nothing fails on its side and the dialer's hello comes. -/
theorem ExistingConnListener.create_hello (d : ExistingConnDialer) (l : ExistingConnListener)
    (connectionId : GoString) (order : ∀ m : Message, Ranging.Order m.putReplyFor.headers)
    (hello : Outgoing) (hhello : hello.msg = d.hello) (hfit : hello.dataLen ≤ maxInt32)
    {timeout : Bool} {peer : ExistingPeer σ} {rest : Bytes}
    (hset : timeout = true → peer.setDeadline 0 = none) (hwrite : peer.write 0 = none)
    (hstream : remaining peer.stream = hello.frame ++ rest) :
    let run := l.create 1 (.ok connectionId) order timeout peer
    let ack := l.ackHello connectionId d.hello true []
    (hello.FitsHello → run.result = .ok ⟨1, d.id, connectionId, d.headers⟩ ∧
      run.ops.filter ConnOp.isWrite = [.write (marshalV2 ack (order ack))] ∧
      .close ∉ run.ops ∧ remaining run.stream = rest) ∧
    (¬ hello.FitsHello → (∀ u, run.result ≠ .ok u) ∧
      run.ops.filter ConnOp.isWrite = [] ∧ .close ∈ run.ops) := by
  obtain ⟨hfits, hlong⟩ := readHello_frame hfit hstream
  have hleaves := l.leaves_create 1 (.ok connectionId) order timeout peer
  have hreceived : hello.received = d.hello := by
    rw [Outgoing.received, hhello]
    rfl
  intro run ack
  constructor
  · intro hbounds
    obtain ⟨next, hnext, hread⟩ := hfits hbounds
    rw [hreceived] at hread
    have htype : d.hello.contentType = contentTypeHelloType := rfl
    have hclosed : .close ∉ run.ops := by
      intro hmem
      exact (hleaves.closed.mp hmem).2.2 d.hello (by rw [hread]) htype
    have hresult : run.result = .ok ⟨1, d.id, connectionId, d.headers⟩ := by
      show (l.create 1 (.ok connectionId) order timeout peer).result = _
      rw [l.create_ok 1 connectionId order hset]
      refine l.accept_cases (P := fun run =>
        run.result = .ok ⟨1, d.id, connectionId, d.headers⟩) ?_ ?_ ?_
      · intro err err' next' hread'
        rw [hread] at hread'
        cases hread'
      · intro request err next' hread' hother
        rw [hread] at hread'
        cases hread'
        exact absurd htype hother
      · intro request result next' hread' _ _ hok
        rw [hread] at hread'
        cases hread'
        refine (hok hwrite).trans ?_
        rw [d.headers_hello]
        rfl
    obtain ⟨request, id, hread', -, hid, -, hwrites⟩ := hleaves.accepted _ hresult
    rw [hread] at hread'
    cases hread'
    cases hid
    exact ⟨hresult, hwrites, hclosed, hnext⟩
  · intro hbounds
    obtain ⟨err, herr, hmagic⟩ := hlong hbounds
    have hclosed : .close ∈ run.ops := by
      refine hleaves.closed.mpr ⟨⟨connectionId, rfl⟩, hset, fun request hrequest => ?_⟩
      rw [herr] at hrequest
      cases hrequest
    refine ⟨fun u hu => ?_, ?_, hclosed⟩
    · obtain ⟨request, id, hread, -⟩ := hleaves.accepted u hu
      rw [hread] at herr
      cases herr
    · rw [hleaves.versions hclosed, herr, if_neg (fun h => hmagic (Except.error.inj h))]

end

/-- **Two ends over one connection.**  Let a dialer and a listener meet over a connection that
works, whatever their headers, however the bytes are cut into reads and whatever follows them.  The
dialer writes one hello.  If it keeps the bounds, the listener takes it and answers once: its
underlay has the dialer's id and headers, and what follows the hello is left to read.  The dialer
then has the listener's connection id and headers, and what follows the answer is left to read,
unless the listener's headers have replaced the success.  If the hello does not keep the bounds, the
listener closes the connection without an answer. -/
theorem existing_conn_handshake {σ τ : Type} [ByteSource σ] [ByteSource τ]
    (d : ExistingConnDialer) (l : ExistingConnListener) (connectionId : GoString)
    (helloOrder : ℕ → Ranging.Order d.hello.putReplyFor.headers)
    (ackOrder : ∀ m : Message, Ranging.Order m.putReplyFor.headers) (timeout timeout' : Bool)
    (atListener : ExistingPeer σ) (atDialer : ExistingPeer τ) (more more' : Bytes)
    (hset : timeout = true → atListener.setDeadline 0 = none) (hwrite : atListener.write 0 = none)
    (hset' : timeout' = true → atDialer.setDeadline 1 = none) (hwrite' : atDialer.write 1 = none) :
    let hello : Outgoing := ⟨d.hello, helloOrder 1⟩
    let ack : Outgoing := ⟨l.ackHello connectionId d.hello true [], ackOrder _⟩
    let accepted := l.create 1 (.ok connectionId) ackOrder timeout atListener
    let dialed := d.create 0 helloOrder timeout' atDialer
    hello.dataLen ≤ maxInt32 → ack.dataLen ≤ maxInt32 →
    remaining atListener.stream = hello.frame ++ more →
    remaining atDialer.stream = ack.frame ++ more' →
    dialed.ops.filter ConnOp.isWrite = [.write hello.frame] ∧
    (hello.FitsHello →
      accepted.result = .ok ⟨1, d.id, connectionId, d.headers⟩ ∧
      accepted.ops.filter ConnOp.isWrite = [.write ack.frame] ∧ .close ∉ accepted.ops ∧
      remaining accepted.stream = more ∧ .close ∉ dialed.ops ∧ remaining dialed.stream = more' ∧
      (dialed.result = if l.successValue.head? = some 1 then
        .ok ⟨0, d.id, connectionId, ack.received.headers⟩ else .error (.new [])) ∧
      ∀ key, key ∉ [connectionIdHeader, replyForHeader, resultSuccessHeader, reflectedHeader] →
        ack.received.headers.lookup key = l.headers.lookup key) ∧
    (¬ hello.FitsHello → (∀ u, accepted.result ≠ .ok u) ∧
      accepted.ops.filter ConnOp.isWrite = [] ∧ .close ∈ accepted.ops) := by
  intro hello ack accepted dialed hfit hfit' hstream hstream'
  obtain ⟨hwritten, hopen, hrest, hresult⟩ :=
    d.create_answered l connectionId helloOrder ack rfl hfit' hset' hwrite' hstream'
  obtain ⟨hfits, hlong⟩ :=
    ExistingConnListener.create_hello d l connectionId ackOrder hello rfl hfit hset hwrite hstream
  refine ⟨hwritten, fun hbounds => ?_, hlong⟩
  obtain ⟨haccepted, hanswer, hopen', hrest'⟩ := hfits hbounds
  refine ⟨haccepted, hanswer, hopen', hrest', hopen, hrest, hresult, fun key hkey => ?_⟩
  simp only [List.mem_cons, List.not_mem_nil, or_false, not_or] at hkey
  obtain ⟨hid, hreply, hsuccess, hreflected⟩ := hkey
  have hnew : (newResult true []).headers.lookup key = none := by
    show (Finmap.insert resultSuccessHeader [1] ∅ : Headers).lookup key = none
    rw [Finmap.lookup_insert_of_ne _ hsuccess, Finmap.lookup_empty]
  refine (Message.lookup_arrived ack.msg hreply).trans ?_
  rw [l.lookup_ackHello, if_neg hid, if_neg (fun h => hreflected h.1), hnew, Option.or_none]

/-- The headers of the answer of a listener without headers. -/
def freshEntries : List HeaderEntry :=
  [⟨connectionIdHeader, str "fresh"⟩, ⟨replyForHeader, putInt32 helloSequence⟩,
    ⟨resultSuccessHeader, [1]⟩]

/-- An order for the headers of every message. -/
noncomputable def freshOrder (m : Message) : Ranging.Order m.putReplyFor.headers :=
  if h : (freshEntries : Multiset HeaderEntry) = m.putReplyFor.headers.entries then
    ⟨freshEntries, h⟩
  else ⟨m.putReplyFor.headers.entries.toList, Multiset.coe_toList _⟩

/-- Two ends without headers, and bytes that come one by one: both get an underlay. -/
theorem existing_conn_handshake_fresh :
    let d : ExistingConnDialer := ⟨str "dialer", ∅⟩
    let hello : Outgoing := ⟨d.hello, [], rfl⟩
    let ack : Outgoing :=
      ⟨ExistingConnListener.ackHello ⟨∅⟩ (str "fresh") d.hello true [], freshOrder _⟩
    let reading (b : Bytes) : ExistingPeer Chopped :=
      ⟨fun _ => none, fun _ => none, ⟨b, fun _ => (1, false)⟩⟩
    (ExistingConnListener.create ⟨∅⟩ 1 (.ok (str "fresh")) freshOrder true
      (reading hello.frame)).result = .ok ⟨1, str "dialer", str "fresh", ∅⟩ ∧
    (d.create 0 (fun _ => hello.order) false (reading ack.frame)).result =
      .ok ⟨0, str "dialer", str "fresh", ack.received.headers⟩ := by
  intro d hello ack reading
  have hentries : ack.order.entries = freshEntries := by
    show (freshOrder _).entries = freshEntries
    rw [freshOrder, dif_pos (by decide)]
  have hfit : ack.dataLen ≤ maxInt32 := by
    rw [Outgoing.dataLen, hentries]
    decide
  obtain ⟨-, hfits, -⟩ := existing_conn_handshake d ⟨∅⟩ (str "fresh") (fun _ => hello.order)
    freshOrder true false (reading hello.frame) (reading ack.frame) [] [] (fun _ => rfl) rfl
    (fun _ => rfl) rfl (by decide) hfit (List.append_nil _).symm (List.append_nil _).symm
  obtain ⟨haccepted, -, -, -, -, -, hdialed, -⟩ := hfits ⟨by decide, by decide⟩
  exact ⟨haccepted, hdialed.trans (if_pos rfl)⟩

/-- **What `Create` leaves behind, whatever is at the other end** and whatever fails on the
connection.  The last call of either end clears the deadline, if one was set; should that fail, it
is only logged.  The dialer writes at most one hello and closes the connection exactly if that
fails.  The listener closes it exactly if it looked for a hello and found none, and then answers
only bytes of another magic, with its versions.  An underlay comes from a hello, or from a result
that replies to the hello and reports success, and nothing behind these has been read. -/
theorem existing_conn_any_peer {σ : Type} [ByteSource σ] (d : ExistingConnDialer)
    (l : ExistingConnListener) (nextConnectionId : Except GoError GoString)
    (helloOrder : ℕ → Ranging.Order d.hello.putReplyFor.headers)
    (ackOrder : ∀ m : Message, Ranging.Order m.putReplyFor.headers) (timeout : Bool)
    (peer : ExistingPeer σ) :
    d.Leaves 0 helloOrder timeout peer (d.create 0 helloOrder timeout peer) ∧
    l.Leaves 1 nextConnectionId ackOrder timeout peer
      (l.create 1 nextConnectionId ackOrder timeout peer) :=
  ⟨d.leaves_create 0 helloOrder timeout peer,
    l.leaves_create 1 nextConnectionId ackOrder timeout peer⟩

end ZitiChannel
