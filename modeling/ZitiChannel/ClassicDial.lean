import ZitiChannel.Fragmentation
import ZitiChannel.Refusal

/-!
# Connections of a dial

`CreateWithHeaders` opens a connection and sends the hello over it.  If that fails it gives up,
except for one case: the peer has named a version to try again with.  Whatever fails, the connection
must not stay open.  `sendHello` sees to that with a deferred call that looks at the error it
returns, so every way out of it is covered, among them one that closes the connection before it
returns.

Here the dial is followed together with what it calls on its connections.

The answer to the hello has to be a result that replies to it.  A message without a reply target
reads as a reply to `-1`, and that is the sequence number of every hello.

## Main definitions

* `Conn`, `ConnCall` — a connection, and what was called on it.
* `HelloPeer` — how the transport and the peer behave.
* `ClassicDialer.sendHelloConn`, `ClassicDialer.createConns` — the dial, with its connections.
* `Message.Unmarked` — a successful result that does not say what it replies to.

## Main results

* `createConns_fst` — the dial returns what the dial without its connections returns.
* `sendHelloConn_closed_iff` — a connection is closed exactly if the hello failed.
* `createConns_connections` — **a dial opens two connections at most, the second only to negotiate
  the version, and leaves none open but the one it returns.**
* `helloReply_iff` — **the answer to a hello is a reply to it, exactly if it is not an unmarked
  result.**

The sources are `classic_dialer.go` and `classic_impl.go`.
-/

namespace ZitiChannel

open ByteStream

/-! ### Connections -/

inductive ConnCall
  | setDeadline
  /-- `SetDeadline` with the zero time. -/
  | clearDeadline
  | write (m : Message)
  | close
  deriving DecidableEq

/-- A connection inside its underlay. -/
structure Conn where
  /-- The underlay's flag. -/
  closed : Bool
  /-- What was called on the connection. -/
  calls : List ConnCall

namespace Conn

def opened : Conn := ⟨false, []⟩

def call (c : Conn) (x : ConnCall) : Conn := { c with calls := c.calls ++ [x] }

/-- `Close` of the underlay: the first one closes the connection. -/
def close (c : Conn) : Conn := if c.closed then c else ⟨true, c.calls ++ [.close]⟩

/-- The flag tells whether the connection was closed. -/
def Sound (c : Conn) : Prop := c.closed = true ↔ .close ∈ c.calls

theorem sound_opened : opened.Sound := by simp [Sound, opened]

theorem Sound.call {c : Conn} (h : c.Sound) {x : ConnCall} (hx : x ≠ .close) : (c.call x).Sound := by
  unfold Sound at h ⊢
  simp [Conn.call, h, hx.symm]

theorem Sound.close {c : Conn} (h : c.Sound) : c.close.Sound := by
  unfold Conn.close
  split
  · exact h
  · simp [Sound]

@[simp] theorem closed_call (c : Conn) (x : ConnCall) : (c.call x).closed = c.closed := rfl

@[simp] theorem closed_close (c : Conn) : c.close.closed = true := by
  unfold close
  split
  · assumption
  · rfl

end Conn

/-! ### A dial with its connections -/

/-- How the transport and the peer behave on one connection: the errors of what is called on it, and
the message or the error that `Rx` returns. -/
structure HelloPeer where
  remoteAddr : GoString
  setDeadline : Option GoError
  tx : Option GoError
  rx : Except GoError Message
  commonName : Option GoString

/-- One turn of the dial loop. -/
structure DialAttempt where
  /-- Whether the deadline is still to come when the loop looks. -/
  beforeDeadline : Bool
  dial : Except GoError HelloPeer

/-- `errors.Is` with `BadMagicNumberError`. -/
def GoError.isBadMagicNumber (err : GoError) : Bool :=
  (err.as fun | .wire .badMagicNumber => some () | _ => none).isSome

namespace ClassicDialer

/-- What `sendHello` makes of the answer, from where it waits for it. -/
def receiveHello (ref : ℕ) (peer : HelloPeer) (request : Message) : Except GoError Underlay :=
  match peer.rx with
  | .error err =>
      if err.isBadMagicNumber then .error (HelloError.negotiate.toGoError peer.remoteAddr)
      else .error err
  | .ok response =>
      (acceptResult ref peer.commonName request response).mapError
        (HelloError.toGoError peer.remoteAddr)

/-- `sendHello` once the deadline is set. -/
def exchangeHello (self : ClassicDialer) (headers : Headers) (ref : ℕ) (peer : HelloPeer)
    (conn : Conn) : Except GoError Underlay × Conn :=
  match self.hello headers with
  -- the provider's error is returned with the underlay already closed
  | .error err => (.error (err.toGoError peer.remoteAddr), conn.close)
  | .ok request =>
      let conn := conn.call (.write request)
      match peer.tx with
      | some err => (.error err, conn)
      | none => (receiveHello ref peer request, conn)

/-- `sendHello` up to its last deferred call: the deadline is cleared if it was set. -/
def deadlineHello (self : ClassicDialer) (headers : Headers) (ref : ℕ) (peer : HelloPeer)
    (conn : Conn) : Except GoError Underlay × Conn :=
  let conn := conn.call .setDeadline
  match peer.setDeadline with
  | some err => (.error err, conn)
  | none =>
      let (result, conn) := self.exchangeHello headers ref peer conn
      (result, conn.call .clearDeadline)

/-- `sendHello` on a new connection.  At its end the underlay is closed if an error is returned. -/
def sendHelloConn (self : ClassicDialer) (headers : Headers) (ref : ℕ) (peer : HelloPeer) :
    Except GoError Underlay × Conn :=
  match self.deadlineHello headers ref peer .opened with
  | (.error err, conn) => (.error err, conn.close)
  | (.ok underlay, conn) => (.ok underlay, conn)

/-- The loop of `CreateWithHeaders`: what it returns, and the connections it opened.  The connection
of an underlay is the one whose place in that list is the underlay's identity. -/
def createLoopConns (self : ClassicDialer) (headers : Headers) (attempts : ℕ → DialAttempt)
    (tryCount : ℕ) : Except GoError Underlay × List Conn :=
  if (attempts tryCount).beforeDeadline then
    match (attempts tryCount).dial with
    | .error err => (.error err, [])
    | .ok peer =>
        match self.sendHelloConn headers tryCount peer with
        | (.ok underlay, conn) => (.ok underlay, [conn])
        | (.error err, conn) =>
            if tryCount > 0 || err.isNonRetryable then (.error err, [conn])
            else
              match err.getRetryVersion with
              | (_, false) => (.error err, [conn])
              | (_, true) =>
                  let (result, conns) := createLoopConns self headers attempts (tryCount + 1)
                  (result, conn :: conns)
  else (.error (.new (str "timeout waiting for dial")), [])
termination_by 1 - tryCount
decreasing_by simp_all

def createConns (self : ClassicDialer) (headers : Headers) (attempts : ℕ → DialAttempt) :
    Except GoError Underlay × List Conn :=
  self.createLoopConns headers attempts 0

end ClassicDialer

/-! ### The same dial without its connections -/

section

variable {σ : Type} [ByteSource σ]

/-- The behaviour of a peer that sends a stream of bytes. -/
def Peer.helloPeer (peer : Peer σ) : HelloPeer where
  remoteAddr := peer.remoteAddr
  setDeadline := peer.setDeadline
  tx := peer.tx
  rx := (readV2 peer.stream).1.mapError .wire
  commonName := peer.commonName

def Attempt.dialAttempt (a : Attempt σ) : DialAttempt where
  beforeDeadline := a.beforeDeadline
  dial := a.dial.map Peer.helloPeer

namespace ClassicDialer

theorem receiveHello_helloPeer (ref : ℕ) (peer : Peer σ) (request : Message) :
    receiveHello ref peer.helloPeer request =
      (sendHello ref peer.commonName request peer.stream).mapError
        (HelloError.toGoError peer.remoteAddr) := by
  unfold receiveHello sendHello Peer.helloPeer
  cases (readV2 peer.stream).1 with
  | ok response => rfl
  | error err => cases err <;> rfl

theorem sendHelloConn_fst (d : ClassicDialer) (headers : Headers) (ref : ℕ) (peer : Peer σ) :
    (d.sendHelloConn headers ref peer.helloPeer).1 = d.sendHelloOver headers ref peer := by
  have hfst : (d.sendHelloConn headers ref peer.helloPeer).1 =
      (d.deadlineHello headers ref peer.helloPeer .opened).1 := by
    unfold sendHelloConn
    split
    · next h => rw [h]
    · next h => rw [h]
  rw [hfst]
  unfold deadlineHello sendHelloOver
  show (match peer.setDeadline with
    | some err => (.error err, _)
    | none => _ : Except GoError Underlay × Conn).1 = _
  cases peer.setDeadline with
  | some err => rfl
  | none =>
    simp only [exchangeHello]
    cases d.hello headers with
    | error err => rfl
    | ok request =>
      show (match peer.tx with
        | some err => (.error err, _)
        | none => _ : Except GoError Underlay × Conn).1 = _
      cases peer.tx with
      | some err => rfl
      | none => exact receiveHello_helloPeer ref peer request

/-- **The dial returns what the dial without its connections returns.** -/
theorem createLoopConns_fst (d : ClassicDialer) (headers : Headers) (attempts : ℕ → Attempt σ)
    (tryCount : ℕ) (version : UInt32) :
    (d.createLoopConns headers (fun i => (attempts i).dialAttempt) tryCount).1 =
      (d.createLoop headers attempts tryCount version).1 := by
  -- the induction follows the turns of the loop; `hconn` is the same hello with its connection
  have hconn : ∀ (ref : ℕ) (peer : Peer σ) (result : Except GoError Underlay),
      d.sendHelloOver headers ref peer = result →
      ∃ conn, d.sendHelloConn headers ref peer.helloPeer = (result, conn) := by
    intro ref peer result hsend
    exact ⟨_, Prod.ext ((sendHelloConn_fst d headers ref peer).trans hsend) rfl⟩
  fun_induction createLoop d headers attempts tryCount version with
  | case1 tryCount version hbefore err hdial =>
    rw [createLoopConns]
    simp [Attempt.dialAttempt, hbefore, hdial, Except.map]
  | case2 tryCount version hbefore peer hdial underlay hsend =>
    obtain ⟨conn, hsend'⟩ := hconn tryCount peer _ hsend
    rw [createLoopConns]
    simp [Attempt.dialAttempt, hbefore, hdial, Except.map, hsend']
  | case3 tryCount version hbefore peer hdial err hsend hfinal =>
    obtain ⟨conn, hsend'⟩ := hconn tryCount peer _ hsend
    rw [createLoopConns]
    simp only [Attempt.dialAttempt, hbefore, hdial, Except.map, hsend', hfinal, if_true]
  | case4 tryCount version hbefore peer hdial err hsend hfinal retryVersion hretry =>
    obtain ⟨conn, hsend'⟩ := hconn tryCount peer _ hsend
    rw [createLoopConns]
    simp only [Attempt.dialAttempt, hbefore, hdial, Except.map, hsend', hfinal, hretry, if_true,
      if_false, Bool.false_eq_true]
  | case5 tryCount version hbefore peer hdial err hsend hfinal retryVersion hretry result versions
      hloop ih =>
    obtain ⟨conn, hsend'⟩ := hconn tryCount peer _ hsend
    rw [createLoopConns]
    simp only [Attempt.dialAttempt, hbefore, hdial, Except.map, hsend', hfinal, hretry, if_true,
      if_false, Bool.false_eq_true]
    rw [hloop] at ih
    exact ih
  | case6 tryCount version hbefore =>
    rw [createLoopConns]
    simp [Attempt.dialAttempt, hbefore]

theorem createConns_fst (d : ClassicDialer) (headers : Headers) (attempts : ℕ → Attempt σ) :
    (d.createConns headers fun i => (attempts i).dialAttempt).1 =
      (d.createWithHeaders headers attempts).1 :=
  d.createLoopConns_fst headers attempts 0 2

end ClassicDialer

end

/-! ### What is left open -/

namespace ClassicDialer

variable {d : ClassicDialer} {headers : Headers}

theorem exchangeHello_sound {conn : Conn} (h : conn.Sound) (ref : ℕ) (peer : HelloPeer) :
    (d.exchangeHello headers ref peer conn).2.Sound := by
  unfold exchangeHello
  cases d.hello headers with
  | error err => exact h.close
  | ok request =>
    have hwrite := h.call (x := .write request) (by simp)
    cases htx : peer.tx with
    | some err => simpa [htx] using hwrite
    | none => simpa [htx] using hwrite

/-- Only the provider's error closes the underlay this early. -/
theorem closed_exchangeHello {conn : Conn} (h : conn.closed = false) {ref : ℕ} {peer : HelloPeer}
    {u : Underlay} (hok : (d.exchangeHello headers ref peer conn).1 = .ok u) :
    (d.exchangeHello headers ref peer conn).2.closed = false := by
  unfold exchangeHello at hok ⊢
  cases hhello : d.hello headers with
  | error err => rw [hhello] at hok; cases hok
  | ok request =>
    cases htx : peer.tx with
    | some err => simpa [htx] using h
    | none => simpa [htx] using h

theorem deadlineHello_sound (d : ClassicDialer) (headers : Headers) {conn : Conn} (h : conn.Sound)
    (ref : ℕ) (peer : HelloPeer) : (d.deadlineHello headers ref peer conn).2.Sound := by
  have hset := h.call (x := .setDeadline) (by simp)
  unfold deadlineHello
  cases hdeadline : peer.setDeadline with
  | some err => exact hset
  | none => exact (exchangeHello_sound hset ref peer).call (by simp)

/-- **A connection is closed exactly if the hello failed.** -/
theorem sendHelloConn_closed_iff (d : ClassicDialer) (headers : Headers) (ref : ℕ)
    (peer : HelloPeer) :
    .close ∈ (d.sendHelloConn headers ref peer).2.calls ↔
      ∃ err, (d.sendHelloConn headers ref peer).1 = .error err := by
  have hsound := deadlineHello_sound d headers Conn.sound_opened ref peer
  unfold sendHelloConn
  split
  · next err conn h =>
    rw [h] at hsound
    exact iff_of_true (hsound.close.mp conn.closed_close) ⟨err, rfl⟩
  · next u conn h =>
    have hopen : conn.closed = false := by
      unfold deadlineHello at h
      cases hdeadline : peer.setDeadline with
      | some err => simp [hdeadline] at h
      | none =>
        simp only [hdeadline, Prod.mk.injEq] at h
        rw [← h.2]
        exact closed_exchangeHello rfl h.1
    rw [h] at hsound
    refine iff_of_false (fun hclose => ?_) (by simp)
    rw [hsound.mpr hclose] at hopen
    cases hopen

/-- The underlay that a hello returns is that of its connection. -/
theorem ref_of_sendHelloConn {ref : ℕ} {peer : HelloPeer} {u : Underlay}
    (h : (d.sendHelloConn headers ref peer).1 = .ok u) : u.ref = ref := by
  have hfst : (d.deadlineHello headers ref peer .opened).1 = .ok u := by
    unfold sendHelloConn at h
    split at h
    · cases h
    · next hdeadline => rw [hdeadline]; exact h
  unfold deadlineHello at hfst
  cases hdeadline : peer.setDeadline with
  | some err => rw [hdeadline] at hfst; cases hfst
  | none =>
    simp only [hdeadline, exchangeHello] at hfst
    cases hhello : d.hello headers with
    | error err => rw [hhello] at hfst; cases hfst
    | ok request =>
      cases htx : peer.tx with
      | some err => simp [hhello, htx] at hfst
      | none =>
        simp only [hhello, htx, receiveHello] at hfst
        cases hrx : peer.rx with
        | error err =>
          rw [hrx] at hfst
          dsimp only at hfst
          split at hfst
          · cases hfst
          · cases hfst
        | ok response =>
          simp only [hrx, acceptResult] at hfst
          split at hfst
          · cases hfst
          · split at hfst
            · cases hfst
            · cases hfst
              rfl

/-- A version is named only by an error that lists it. -/
theorem unsupportedVersion_of_getRetryVersion {err : GoError} {version : UInt32}
    (h : err.getRetryVersion = (version, true)) :
    ∃ vs, err = .wire (.unsupportedVersion vs) ∧ 2 ∈ vs := by
  unfold GoError.getRetryVersion at h
  split at h
  · next vs =>
    rw [Prod.mk.injEq] at h
    exact ⟨vs, rfl, List.contains_iff_mem.mp h.2⟩
  · cases h

/-- One turn of the loop: nothing is opened, or one connection whose hello is the last, or one whose
hello is answered with a list of versions. -/
theorem createLoopConns_cases (d : ClassicDialer) (headers : Headers) (attempts : ℕ → DialAttempt)
    (tryCount : ℕ) :
    (∃ err, d.createLoopConns headers attempts tryCount = (.error err, [])) ∨
    (∃ peer, (attempts tryCount).dial = .ok peer ∧
      d.createLoopConns headers attempts tryCount =
        ((d.sendHelloConn headers tryCount peer).1, [(d.sendHelloConn headers tryCount peer).2])) ∨
    (tryCount = 0 ∧ ∃ peer vs, (attempts tryCount).dial = .ok peer ∧
      (d.sendHelloConn headers tryCount peer).1 = .error (.wire (.unsupportedVersion vs)) ∧ 2 ∈ vs ∧
      d.createLoopConns headers attempts tryCount =
        ((d.createLoopConns headers attempts (tryCount + 1)).1,
          (d.sendHelloConn headers tryCount peer).2 ::
            (d.createLoopConns headers attempts (tryCount + 1)).2)) := by
  rw [createLoopConns]
  split
  · split
    · next err _ => exact .inl ⟨err, rfl⟩
    · next peer hdial =>
      split
      · next hsend => exact .inr (.inl ⟨peer, hdial, by rw [hsend]⟩)
      · next err conn hsend =>
        split
        · exact .inr (.inl ⟨peer, hdial, by rw [hsend]⟩)
        · next hagain =>
          split
          · exact .inr (.inl ⟨peer, hdial, by rw [hsend]⟩)
          · next version hretry =>
            obtain ⟨vs, rfl, hmem⟩ := unsupportedVersion_of_getRetryVersion hretry
            have hzero : tryCount = 0 := by
              by_contra hne
              exact hagain (by simp [Nat.pos_of_ne_zero hne])
            exact .inr (.inr ⟨hzero, peer, vs, hdial, by rw [hsend], hmem, by rw [hsend]⟩)
  · exact .inl ⟨_, rfl⟩

/-- Behind the first turn, one connection is opened at most. -/
theorem length_createLoopConns_succ (d : ClassicDialer) (headers : Headers)
    (attempts : ℕ → DialAttempt) (tryCount : ℕ) :
    (d.createLoopConns headers attempts (tryCount + 1)).2.length ≤ 1 := by
  rcases d.createLoopConns_cases headers attempts (tryCount + 1) with
    ⟨err, h⟩ | ⟨peer, _, h⟩ | ⟨h, _⟩
  · rw [h]
    exact Nat.zero_le 1
  · rw [h]
    exact le_rfl
  · cases h

/-- A connection is closed, or it is inside the underlay that is returned. -/
def Released (result : Except GoError Underlay) (i : ℕ) (c : Conn) : Prop :=
  .close ∈ c.calls ∨ ∃ u, result = .ok u ∧ u.ref = i

theorem released_sendHelloConn (d : ClassicDialer) (headers : Headers) (ref : ℕ) (peer : HelloPeer) :
    Released (d.sendHelloConn headers ref peer).1 ref (d.sendHelloConn headers ref peer).2 := by
  cases hsend : (d.sendHelloConn headers ref peer).1 with
  | error err => exact .inl ((d.sendHelloConn_closed_iff headers ref peer).mpr ⟨err, hsend⟩)
  | ok u => exact .inr ⟨u, rfl, ref_of_sendHelloConn hsend⟩

/-- From the second turn on, the connections are released. -/
theorem released_createLoopConns_succ (attempts : ℕ → DialAttempt) (tryCount : ℕ) :
    ∀ c ∈ (d.createLoopConns headers attempts (tryCount + 1)).2,
      Released (d.createLoopConns headers attempts (tryCount + 1)).1 (tryCount + 1) c := by
  rcases d.createLoopConns_cases headers attempts (tryCount + 1) with
    ⟨err, h⟩ | ⟨peer, _, h⟩ | ⟨h, _⟩
  · rw [h]
    intro c hc
    cases hc
  · rw [h]
    intro c hc
    rw [List.mem_singleton.mp hc]
    exact d.released_sendHelloConn headers (tryCount + 1) peer
  · cases h

end ClassicDialer

/-- **Connections of a dial.**  However the transport and the peer behave at each attempt, a dial
opens two connections at most.  It opens a second one only if the hello over the first failed with
an error that lists the supported versions, the second version among them.  When it returns, every
connection is closed except the one inside the underlay that it returns. -/
theorem createConns_connections (d : ClassicDialer) (headers : Headers) (attempts : ℕ → DialAttempt) :
    let r := d.createConns headers attempts
    r.2.length ≤ 2 ∧
      (2 ≤ r.2.length → ∃ peer vs, (attempts 0).dial = .ok peer ∧
        (d.sendHelloConn headers 0 peer).1 = .error (.wire (.unsupportedVersion vs)) ∧ 2 ∈ vs) ∧
      ∀ i c, r.2[i]? = some c → .close ∈ c.calls ∨ ∃ u, r.1 = .ok u ∧ u.ref = i := by
  intro r
  rcases d.createLoopConns_cases headers attempts 0 with
    ⟨err, h⟩ | ⟨peer, _, h⟩ | ⟨_, peer, vs, hdial, hsend, hmem, h⟩
  · have hr : r = (.error err, []) := h
    rw [hr]
    refine ⟨by simp, by simp, ?_⟩
    intro i c hc
    simp at hc
  · have hr : r = ((d.sendHelloConn headers 0 peer).1, [(d.sendHelloConn headers 0 peer).2]) := h
    rw [hr]
    refine ⟨by simp, by simp, ?_⟩
    intro i c hc
    obtain ⟨rfl, rfl⟩ : i = 0 ∧ (d.sendHelloConn headers 0 peer).2 = c := by
      cases i with
      | zero => exact ⟨rfl, Option.some.inj hc⟩
      | succ i => simp at hc
    exact d.released_sendHelloConn headers 0 peer
  · have hr : r = _ := h
    have hone := d.length_createLoopConns_succ headers attempts 0
    rw [hr]
    refine ⟨Nat.succ_le_succ hone, fun _ => ⟨peer, vs, hdial, hsend, hmem⟩, ?_⟩
    intro i c hc
    cases i with
    | zero =>
      -- the first connection was closed when its hello failed
      left
      rw [← Option.some.inj hc]
      exact (d.sendHelloConn_closed_iff headers 0 peer).mpr ⟨_, hsend⟩
    | succ i =>
      have hi : i = 0 := by
        have := (List.getElem?_eq_some_iff.mp hc).1
        simp only [List.length_cons] at this
        omega
      subst hi
      exact ClassicDialer.released_createLoopConns_succ attempts 0 c (List.mem_of_getElem? hc)

/-- The first peer lists two versions, and the second sends nothing. -/
def retryAttempts (i : ℕ) : DialAttempt :=
  ⟨true, .ok ⟨str "listener", none, none,
    if i = 0 then .error (.wire (.unsupportedVersion [1, 2])) else .error (.wire (.read .eof)), none⟩⟩

theorem createConns_connections_retry :
    2 ≤ (plainDialer.createConns ∅ retryAttempts).2.length ∧
      ∀ c ∈ (plainDialer.createConns ∅ retryAttempts).2, .close ∈ c.calls := by
  have hloop : (plainDialer.createConns ∅ retryAttempts).2.length = 2 ∧
      (plainDialer.createConns ∅ retryAttempts).1 = .error (.wire (.read .eof)) := by
    rw [ClassicDialer.createConns, ClassicDialer.createLoopConns, ClassicDialer.createLoopConns]
    exact ⟨rfl, rfl⟩
  obtain ⟨-, -, hreleased⟩ := createConns_connections plainDialer ∅ retryAttempts
  refine ⟨hloop.1.ge, fun c hc => ?_⟩
  obtain ⟨i, hi⟩ := List.getElem?_of_mem hc
  rcases hreleased i c hi with hclose | ⟨u, hu, _⟩
  · exact hclose
  · rw [hloop.2] at hu
    cases hu

/-! ### What is taken for an answer -/

namespace Message

/-- The message says that it replies to a hello. -/
def RepliesToHello (m : Message) : Prop :=
  m.contentType = contentTypeResultType ∧
    ∃ b, m.headers.lookup replyForHeader = some b ∧ b.length = 4 ∧ int32 b = helloSequence

/-- A successful result that does not say what it replies to. -/
def Unmarked (m : Message) : Prop :=
  m.contentType = contentTypeResultType ∧ (unmarshalResult m).success = true ∧
    ∀ b, m.headers.lookup replyForHeader = some b → b.length ≠ 4

/-- A message as it is read replies to the hello's sequence number in two ways: it says so, or it
says nothing. -/
theorem isReplyingTo_helloSequence_iff {m : Message} (hcache : m.cachedReplyFor = none) :
    m.isReplyingTo helloSequence = true ↔
      (∃ b, m.headers.lookup replyForHeader = some b ∧ b.length = 4 ∧ int32 b = helloSequence) ∨
        ∀ b, m.headers.lookup replyForHeader = some b → b.length ≠ 4 := by
  unfold MessageHeader.isReplyingTo MessageHeader.replyFor MessageHeader.cacheReplyFor
  rw [hcache, decide_eq_true_iff]
  cases hl : m.headers.lookup replyForHeader with
  | none => simp [notAReply, helloSequence]
  | some b =>
    by_cases hb : b.length = 4
    · simp [hb, replyForHeaderLen]
    · simp [hb, replyForHeaderLen, notAReply, helloSequence]

end Message

namespace ClassicDialer

/-- An answer is accepted exactly if it is a successful result that replies to the hello's sequence
number. -/
theorem exists_acceptResult_iff (ref : ℕ) (commonName : Option GoString) (request response : Message) :
    (∃ u, acceptResult ref commonName request response = .ok u) ↔
      response.isReplyingTo helloSequence = true ∧ response.contentType = contentTypeResultType ∧
        (unmarshalResult response).success = true := by
  unfold acceptResult
  cases response.isReplyingTo helloSequence with
  | false => simp
  | true =>
    by_cases htype : response.contentType = contentTypeResultType
    · cases hsuccess : (unmarshalResult response).success with
      | false => simp [htype, hsuccess]
      | true => simp [htype, hsuccess]
    · simp [htype]

variable {σ : Type} [ByteSource σ]

/-- The hello is sent over the connection: nothing fails before the dialer waits for the answer. -/
def SendsHello (self : ClassicDialer) (headers : Headers) (peer : Peer σ) : Prop :=
  peer.setDeadline = none ∧ (∃ request, self.hello headers = .ok request) ∧ peer.tx = none

/-- A hello succeeds exactly if it is sent and its answer is accepted. -/
theorem exists_sendHelloOver_iff (d : ClassicDialer) (headers : Headers) (ref : ℕ) (peer : Peer σ) :
    (∃ u, d.sendHelloOver headers ref peer = .ok u) ↔
      d.SendsHello headers peer ∧ ∃ m, (readV2 peer.stream).1 = .ok m ∧
        m.isReplyingTo helloSequence = true ∧ m.contentType = contentTypeResultType ∧
        (unmarshalResult m).success = true := by
  unfold sendHelloOver SendsHello
  cases hdeadline : peer.setDeadline with
  | some err => simp
  | none =>
    cases hhello : d.hello headers with
    | error err => simp
    | ok request =>
      cases htx : peer.tx with
      | some err => simp
      | none =>
        have hmap : ∀ r : Except HelloError Underlay,
            (∃ u, r.mapError (HelloError.toGoError peer.remoteAddr) = .ok u) ↔ ∃ u, r = .ok u := by
          intro r
          cases r with
          | error err => simp [Except.mapError]
          | ok u => simp [Except.mapError]
        rw [hmap]
        unfold sendHello
        cases hread : (readV2 peer.stream).1 with
        | error err => cases err <;> simp
        | ok m => simp [exists_acceptResult_iff]

end ClassicDialer

/-- **The answer to a hello.**  For every dialer and every first message that its peer sends, the
hello succeeds only if the message is a result that carries the hello's sequence number in the four
bytes of its reply target.  This holds exactly if no hello that was sent is answered with a
successful result without such four bytes. -/
theorem helloReply_iff {σ : Type} [ByteSource σ] (d : ClassicDialer) (headers : Headers) (ref : ℕ)
    (peer : Peer σ) :
    (∀ u, d.sendHelloOver headers ref peer = .ok u →
      ∃ m, (readV2 peer.stream).1 = .ok m ∧ m.RepliesToHello) ↔
    ¬ (d.SendsHello headers peer ∧ ∃ m, (readV2 peer.stream).1 = .ok m ∧ m.Unmarked) := by
  constructor
  · intro hreply ⟨hsent, m, hread, htype, hsuccess, hnone⟩
    have hreplying : m.isReplyingTo helloSequence = true :=
      (Message.isReplyingTo_helloSequence_iff (readV2_cachedReplyFor hread)).mpr (.inr hnone)
    obtain ⟨u, hu⟩ := (d.exists_sendHelloOver_iff headers ref peer).mpr
      ⟨hsent, m, hread, hreplying, htype, hsuccess⟩
    obtain ⟨m', hread', -, b, hb, hlen, -⟩ := hreply u hu
    rw [hread] at hread'
    cases hread'
    exact hnone b hb hlen
  · intro hmarked u hu
    obtain ⟨hsent, m, hread, hreplying, htype, hsuccess⟩ :=
      (d.exists_sendHelloOver_iff headers ref peer).mp ⟨u, hu⟩
    refine ⟨m, hread, htype, ?_⟩
    rcases (Message.isReplyingTo_helloSequence_iff (readV2_cachedReplyFor hread)).mp hreplying with
      hsays | hnone
    · exact hsays
    · exact absurd ⟨hsent, m, hread, htype, hsuccess, hnone⟩ hmarked

/-- A successful result, sent without having been made a reply. -/
def unmarkedResult : Outgoing := ⟨newResult true [], [⟨2, [1]⟩], by decide⟩

/-- It is no reply, and it is taken for the answer to the hello. -/
theorem unmarkedResult_accepted :
    let peer : Peer Chopped :=
      ⟨str "listener", none, none, none, ⟨unmarkedResult.frame, fun _ => (1, false)⟩⟩
    ∃ m u, (readV2 peer.stream).1 = .ok m ∧ m.isReply = false ∧
      m.headers.lookup replyForHeader = none ∧ plainDialer.sendHelloOver ∅ 0 peer = .ok u := by
  intro peer
  have hstream : ByteSource.remaining peer.stream = unmarkedResult.frame ++ [] :=
    (List.append_nil _).symm
  obtain ⟨next, -, hread⟩ := readV2_frame (by decide) hstream
  have hread' : (readV2 peer.stream).1 = .ok unmarkedResult.received := congrArg Prod.fst hread
  obtain ⟨u, hu⟩ := (plainDialer.exists_sendHelloOver_iff ∅ 0 peer).mpr
    ⟨⟨rfl, ⟨_, rfl⟩, rfl⟩, unmarkedResult.received, hread', by decide, by decide, by decide⟩
  exact ⟨unmarkedResult.received, u, hread', by decide, by decide, hu⟩

end ZitiChannel
