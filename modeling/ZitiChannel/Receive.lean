import ZitiChannel.Message

/-!
# Waiters and received messages

A request that wants a reply leaves a waiter behind, under its sequence number.  A
received message that is a reply takes the waiter of the sequence it replies to; any
other message, and a reply nobody waits for, goes to the handler of its content type,
or to the handler of any content type.

## Main definitions

* `WaiterMap` with `addWaiter`, `removeWaiter`, `reapEntry`, `reapExpired`, `clear`.
* `Target`, `dispatch` — where a received message goes.
* `rx` — what a receiver does with a message, run without interruption.

The source is `impl.go`.
-/

namespace ZitiChannel

/-! ### The waiter map -/

structure Waiter (ρ : Type) where
  replyReceiver : ρ
  /-- The last millisecond at which it is not expired. -/
  ttlMs : Int
  deriving DecidableEq

/-- The waiters by sequence number, and their count as it is kept. -/
structure WaiterMap (ρ : Type) where
  m : Int32 → Option (Waiter ρ)
  size : Int32

namespace WaiterMap

variable {ρ : Type}

/-- Register the receiver of a request, if it has one.  Without a deadline it waits for
thirty seconds. -/
def addWaiter (self : WaiterMap ρ) (sequence : Int32) (replyReceiver : Option ρ)
    (deadline : Option Int) (now : Int) : WaiterMap ρ :=
  match replyReceiver with
  | none => self
  | some receiver =>
      let ttlMs := deadline.getD (now + 30000)
      { m := Function.update self.m sequence (some ⟨receiver, ttlMs⟩), size := self.size + 1 }

/-- Take the waiter of a sequence number. -/
def removeWaiter (self : WaiterMap ρ) (seq : Int32) : WaiterMap ρ × Option ρ :=
  match self.m seq with
  | some w => ({ m := Function.update self.m seq none, size := self.size - 1 }, some w.replyReceiver)
  | none => (self, none)

/-- Whether `reapExpired` deletes the entry under a key. -/
def expired (self : WaiterMap ρ) (now : Int) (key : Int32) : Bool :=
  (self.m key).any fun w => decide (w.ttlMs < now)

/-- What `reapExpired` does with one entry; the count is adjusted at the end. -/
def reapEntry (self : WaiterMap ρ) (now : Int) (key : Int32) : WaiterMap ρ :=
  if self.expired now key then { self with m := Function.update self.m key none } else self

/-- Delete the expired waiters among the visited keys. -/
def reapKeys (self : WaiterMap ρ) (now : Int) : List Int32 → WaiterMap ρ × Int32
  | [] => (self, 0)
  | key :: keys =>
      let rest := (self.reapEntry now key).reapKeys now keys
      if self.expired now key then (rest.1, rest.2 + 1) else rest

/-- Delete the expired waiters, visiting the keys in some order. -/
def reapExpired (self : WaiterMap ρ) (now : Int) (keys : List Int32) : WaiterMap ρ :=
  let (reaped, deleteCount) := self.reapKeys now keys
  { reaped with size := reaped.size - deleteCount }

/-- Forget all waiters. -/
def clear (_ : WaiterMap ρ) : WaiterMap ρ := ⟨fun _ => none, 0⟩

/-! What happens to the waiter of one sequence number. -/

variable {self : WaiterMap ρ} {seq : Int32} {w : Waiter ρ}

theorem addWaiter_self (self : WaiterMap ρ) (seq : Int32) (receiver : ρ) (deadline : Option Int)
    (now : Int) :
    (self.addWaiter seq (some receiver) deadline now).m seq =
      some ⟨receiver, deadline.getD (now + 30000)⟩ := by
  simp [addWaiter]

theorem addWaiter_of_ne {seq' : Int32} (h : seq ≠ seq') (receiver : Option ρ)
    (deadline : Option Int) (now : Int) :
    (self.addWaiter seq' receiver deadline now).m seq = self.m seq := by
  cases receiver <;> simp [addWaiter, h]

/-- A waiter is in the map after a registration because it was registered, or was there before. -/
theorem mem_of_addWaiter {seq' : Int32} {receiver : ρ} {deadline : Option Int} {now : Int}
    (h : (self.addWaiter seq' (some receiver) deadline now).m seq = some w) :
    (seq = seq' ∧ w.replyReceiver = receiver) ∨ self.m seq = some w := by
  rcases eq_or_ne seq seq' with rfl | hne
  · rw [addWaiter_self] at h; cases h; exact .inl ⟨rfl, rfl⟩
  · rw [addWaiter_of_ne hne] at h; exact .inr h

theorem removeWaiter_self : (self.removeWaiter seq).1.m seq = none := by
  unfold removeWaiter
  split
  · simp
  · assumption

theorem removeWaiter_of_ne {seq' : Int32} (h : seq ≠ seq') :
    (self.removeWaiter seq').1.m seq = self.m seq := by
  unfold removeWaiter
  split
  · simp [h]
  · rfl

theorem reapEntry_of_ne {now : Int} {key : Int32} (h : seq ≠ key) :
    (self.reapEntry now key).m seq = self.m seq := by
  unfold reapEntry
  split
  · simp [h]
  · rfl

/-- An entry that has not expired is not reaped, whatever else is. -/
theorem reapEntry_of_live {now : Int} (h : self.m seq = some w) (hw : now ≤ w.ttlMs)
    (key : Int32) : (self.reapEntry now key).m seq = some w := by
  unfold reapEntry
  split
  · next hexp =>
    have hne : seq ≠ key := by
      rintro rfl
      simp only [expired, h, Option.any_some, decide_eq_true_eq] at hexp
      omega
    simpa [hne] using h
  · exact h

theorem reapExpired_of_live {now : Int} (h : self.m seq = some w) (hw : now ≤ w.ttlMs)
    (keys : List Int32) : (self.reapExpired now keys).m seq = some w := by
  suffices hkeys : ∀ (keys : List Int32) (self : WaiterMap ρ), self.m seq = some w →
      (self.reapKeys now keys).1.m seq = some w from hkeys keys self h
  intro keys
  induction keys with
  | nil => intro self h; exact h
  | cons key keys ih =>
    intro self h
    have hrest := ih _ (reapEntry_of_live h hw key)
    simp only [reapKeys]
    split <;> exact hrest

theorem mem_of_removeWaiter {seq' : Int32} (h : (self.removeWaiter seq').1.m seq = some w) :
    self.m seq = some w := by
  rcases eq_or_ne seq seq' with rfl | hne
  · rw [removeWaiter_self] at h; cases h
  · rwa [removeWaiter_of_ne hne] at h

theorem mem_of_reapEntry {now : Int} {key : Int32} (h : (self.reapEntry now key).m seq = some w) :
    self.m seq = some w := by
  unfold reapEntry at h
  split at h
  · rcases eq_or_ne seq key with rfl | hne
    · simp at h
    · simpa [hne] using h
  · exact h

theorem mem_of_reapKeys {now : Int} {keys : List Int32}
    (h : (self.reapKeys now keys).1.m seq = some w) : self.m seq = some w := by
  induction keys generalizing self with
  | nil => exact h
  | cons key keys ih =>
    have hrest : ((self.reapEntry now key).reapKeys now keys).1.m seq = some w := by
      rw [reapKeys] at h
      split at h <;> exact h
    exact mem_of_reapEntry (ih hrest)

end WaiterMap

/-! ### Received messages -/

/-- The content type under which a handler for every message is registered. -/
def anyContentType : Int32 := -1

/-- Where a received message goes. -/
inductive Target (ρ : Type)
  /-- `AcceptReply` of a receiver. -/
  | receiver (r : ρ)
  /-- The handler registered for a content type. -/
  | handler (contentType : Int32)
  | dropped
  deriving DecidableEq

/-- Where a message goes that no waiter took: `handlers` tells the content types with a
handler. -/
def dispatch {ρ : Type} (handlers : Int32 → Bool) (m : Message) : Target ρ :=
  if handlers m.contentType then .handler m.contentType
  else if handlers anyContentType then .handler anyContentType
  else .dropped

/-- Whether this reply is one before which expired waiters are reaped. -/
def reaps (replyCounter : UInt32) (size : Int32) : Bool :=
  decide (replyCounter % 100 = 0 ∧ 1000 < size)

/-- What becomes of a received message, with `now` the time of its arrival and `keys` the
order in which the waiters are visited if they are reaped. -/
def rx {ρ : Type} (handlers : Int32 → Bool) (replyCounter : UInt32) (waiters : WaiterMap ρ)
    (now : Int) (keys : List Int32) (m : Message) : UInt32 × WaiterMap ρ × Target ρ :=
  if m.isReply then
    let replyCounter := replyCounter + 1
    let waiters :=
      if reaps replyCounter waiters.size then waiters.reapExpired now keys else waiters
    match waiters.removeWaiter m.replyFor with
    | (waiters, some replyReceiver) => (replyCounter, waiters, .receiver replyReceiver)
    | (waiters, none) => (replyCounter, waiters, dispatch handlers m)
  else (replyCounter, waiters, dispatch handlers m)

theorem dispatch_ne_receiver {ρ : Type} {handlers : Int32 → Bool} {m : Message} {r : ρ} :
    dispatch handlers m ≠ .receiver r := by
  unfold dispatch
  split
  · simp
  · split <;> simp

/-- A reply takes the waiter it replies to, if that has not expired. -/
theorem rx_of_waiter {ρ : Type} {handlers : Int32 → Bool} {replyCounter : UInt32}
    {waiters : WaiterMap ρ} {now : Int} {keys : List Int32} {m : Message} {w : Waiter ρ}
    (hreply : m.isReply = true) (hw : waiters.m m.replyFor = some w) (hnow : now ≤ w.ttlMs) :
    (rx handlers replyCounter waiters now keys m).2.2 = .receiver w.replyReceiver := by
  have hafter : (if reaps (replyCounter + 1) waiters.size then waiters.reapExpired now keys
      else waiters).m m.replyFor = some w := by
    split
    · exact WaiterMap.reapExpired_of_live hw hnow keys
    · exact hw
  simp only [rx, hreply, if_true, WaiterMap.removeWaiter, hafter]

end ZitiChannel
