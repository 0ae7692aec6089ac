import ZitiChannel.LinkSide

/-!
# What is on the wire, and what becomes of it

The bytes on a connection are those of the frames that its `txer` has completed, followed by a piece
of the one it is writing, or of the one whose write failed.  No message is complete on the wire
twice, however often it was requeued: a `txer` that has put out a whole frame keeps the message, and
the write that returns is counted.  At the other end, an `rxer` delivers what it reads before it
reads on.

## Main results

* `sent_eq` — the bytes on a connection.
* `wire_nodup_iff` — no message is on the wire twice, and what is there was written.
* `reads_eq` — what was read is what was delivered, and at most one message more.

The sources are `impl.go` and `classic_impl.go`.
-/

namespace ZitiChannel

open Transition ByteStream

namespace Side

variable {setup : LinkSetup} {s s' : Side}

/-! ### The bytes on a connection -/

/-- The frames that are complete on a connection. -/
def framesBy (setup : LinkSetup) (s : Side) (t : ℕ) : Bytes :=
  frames ((s.wireBy t).map fun c => setup.outgoing c.sendable t)

/-- What is on a connection behind the complete frames: some of the frame that is being written, or
of the one whose write failed. -/
def PartOf (setup : LinkSetup) (t progress : ℕ) (part : Bytes) : TxPc → Prop
  | .write x =>
      (progress < (setup.frame x t).length → part = (setup.frame x t).take progress) ∧
        ((setup.frame x t).length ≤ progress → part = [])
  | .failed _ _ | .retry _ _ _ | .refused _ | .stopped =>
      ∃ x n, n < (setup.frame x t).length ∧ part = (setup.frame x t).take n
  | _ => progress = 0 ∧ part = []

theorem length_frame_pos (setup : LinkSetup) (x t : ℕ) : 0 < (setup.frame x t).length := by
  rw [LinkSetup.frame, Outgoing.frame, marshalV2_eq, List.length_append, length_messageSection]
  exact Nat.add_pos_left (by decide) _

theorem take_append_slice (b : Bytes) (m n : ℕ) :
    b.take m ++ slice b m (m + n) = b.take (m + n) := by
  have htake : b.take m = (b.take (m + n)).take m := by
    rw [List.take_take, Nat.min_eq_left (by omega)]
  rw [htake, slice, List.take_append_drop]

/-- A `txer` that goes on leaves on its connection what is there. -/
theorem partOf_txNext {t : ℕ} {part : Bytes} {pc pc' : TxPc} {a : TxAction} {e : TxEffect}
    (hpc : s.mux.tx.txers t = pc) (hreturns : s.returns setup (.tx t a) = true)
    (h : txNext setup.toMuxSetup s.mux.tx t pc a = some (pc', e))
    (hpart : PartOf setup t (s.progress t) part pc) :
    PartOf setup t (s.progressAfter (.tx t a) t) part pc' := by
  have hpos := length_frame_pos setup
  revert h
  fun_cases txNext setup.toMuxSetup s.mux.tx t pc a
  all_goals intro h; cases h
  all_goals simp only [PartOf, progressAfter, Function.update_self] at hpart ⊢
  all_goals try exact hpart
  -- what is left: a `txer` that stops, one that begins to write, and one whose write returns
  · exact ⟨0, 0, hpos 0 t, hpart.2⟩
  · simp [hpart.1, hpart.2]
  · simp [hpart.2]
  · exact ⟨0, 0, hpos 0 t, hpart.2⟩
  · simp [returns, hpc] at hreturns
    exact ⟨trivial, hpart.2 hreturns⟩
  · simp [returns, hpc] at hreturns
    exact ⟨_, _, hreturns, hpart.1 hreturns⟩

theorem wireBy_complete {t : ℕ} {c : Carried} (hc : c.txer = t) (n : ℕ) (frame : Bytes) (t' : ℕ) :
    (s.complete t n frame c).wireBy t' = s.wireBy t' ++ if t' = t then [c] else [] := by
  rcases eq_or_ne t' t with rfl | ht
  · simp [wireBy, complete, hc]
  · simp [wireBy, complete, hc, ht, ht.symm]

theorem framesBy_complete {t : ℕ} {c : Carried} (hc : c.txer = t) (n : ℕ) (frame : Bytes) :
    (s.complete t n frame c).framesBy setup t = s.framesBy setup t ++ setup.frame c.sendable t := by
  rw [framesBy, wireBy_complete hc, if_pos rfl]
  simp [frames, framesBy, LinkSetup.frame]

theorem framesBy_complete_of_ne {t t' : ℕ} {c : Carried} (hc : c.txer = t) (ht : t' ≠ t) (n : ℕ)
    (frame : Bytes) : (s.complete t n frame c).framesBy setup t' = s.framesBy setup t' := by
  rw [framesBy, wireBy_complete hc, if_neg ht, List.append_nil]
  rfl

/-- The sendable whose frame is complete is the one that is being written. -/
theorem sendable_of_last {t x : ℕ} {c : Carried} (h : Behind setup s t)
    (hahead : s.ahead setup t = some x) (hlast : (s.takenBy t).getLast? = some c) :
    c.sendable = x ∧ c.txer = t := by
  rw [Behind, hahead] at h
  obtain ⟨rest, c', htaken, hx, -⟩ := h
  have hcc : c' = c := by simpa [htaken] using hlast
  refine ⟨hcc ▸ hx, ?_⟩
  simpa [takenBy] using (List.mem_filter.mp (List.mem_of_getLast? hlast)).2

/-- **The bytes on a connection** are those of the complete frames, followed by a piece of one
more. -/
theorem sent_eq (hs : (side setup).Reachable System.anyEvent s) (t : ℕ) :
    ∃ part, s.sent t = s.framesBy setup t ++ part ∧
      PartOf setup t (s.progress t) part (s.mux.tx.txers t) := by
  refine hs.invariant_of_reachable (P := fun s => ∃ part, s.sent t = s.framesBy setup t ++ part ∧
    PartOf setup t (s.progress t) part (s.mux.tx.txers t)) ?_ ?_
  · exact ⟨[], rfl, rfl, rfl⟩
  intro s e s' hs ih _ hstep
  obtain ⟨part, hsent, hpart⟩ := ih
  refine step_cases (P := fun s' => ∃ part, s'.sent t = s'.framesBy setup t ++ part ∧
    PartOf setup t (s'.progress t) part (s'.mux.tx.txers t)) hstep ?_ ?_ ?_
  · intro act mux _ hreturns hmux
    refine ⟨part, hsent, ?_⟩
    show PartOf setup t (s.progressAfter act t) part (mux.tx.txers t)
    cases moves_step hmux t with
    | still _ hpc hprogress => rw [hpc, hprogress]; exact hpart
    | takes c _ hidle hpc hprogress =>
      rw [hidle] at hpart
      rw [hpc, hprogress]
      exact hpart
    | goes a pc e hact hnext _ _ hpc =>
      subst hact
      rw [hpc]
      exact partOf_txNext rfl hreturns hnext hpart
  · intro u n x hpc _ hlt
    rcases eq_or_ne t u with rfl | htu
    · rw [hpc] at hpart
      have hpart := hpart.1 (by omega)
      refine ⟨(setup.frame x t).take (s.progress t + n), ?_, ?_⟩
      · show Function.update s.sent t _ t = _
        rw [Function.update_self, hsent, hpart, List.append_assoc, take_append_slice]
        rfl
      · show PartOf setup t ((s.put t n _).progress t) _ (s.mux.tx.txers t)
        rw [hpc, put_progress]
        exact ⟨fun _ => rfl, fun hle => absurd hlt (Nat.not_lt.mpr hle)⟩
    · refine ⟨part, ?_, ?_⟩
      · exact (Function.update_of_ne htu _ _).trans hsent
      · show PartOf setup t (Function.update s.progress u _ t) part (s.mux.tx.txers t)
        rw [Function.update_of_ne htu]
        exact hpart
  · intro u n x c hpc hn heq hlast
    have hahead : s.ahead setup u = some x := by rw [ahead_of_write hpc, if_pos (by omega)]
    obtain ⟨hcx, hcu⟩ := sendable_of_last (behind hs u) hahead hlast
    rcases eq_or_ne t u with rfl | htu
    · rw [hpc] at hpart
      have hpart := hpart.1 (by omega)
      refine ⟨[], ?_, ?_⟩
      · rw [framesBy_complete hcu, hcx, List.append_nil]
        show Function.update s.sent t _ t = _
        rw [Function.update_self, hsent, hpart, List.append_assoc, take_append_slice, heq,
          List.take_length]
      · show PartOf setup t ((s.complete t n _ c).progress t) _ (s.mux.tx.txers t)
        rw [hpc, complete_progress]
        exact ⟨fun hlt => absurd heq hlt.ne, fun _ => rfl⟩
    · refine ⟨part, ?_, ?_⟩
      · rw [framesBy_complete_of_ne hcu htu]
        exact (Function.update_of_ne htu _ _).trans hsent
      · show PartOf setup t (Function.update s.progress u _ t) part (s.mux.tx.txers t)
        rw [Function.update_of_ne htu]
        exact hpart

/-! ### Nothing is on the wire twice -/

/-- The whole frame of a sendable is out, and its write has not returned. -/
def Out (setup : LinkSetup) (s : Side) (t x : ℕ) : Prop :=
  s.mux.tx.txers t = .write x ∧ (setup.frame x t).length ≤ s.progress t

theorem reachable_mux (hs : (side setup).Reachable System.anyEvent s) :
    (multiplex setup.toMuxSetup).Reachable System.anyEvent s.mux :=
  (refines_multiplex setup).reachable hs

/-- Who holds a sendable knows its account, and holds it alone. -/
theorem held_alone {mux : Multiplex}
    (hs : (multiplex setup.toMuxSetup).Reachable System.anyEvent mux)
    {t x : ℕ} (hx : (mux.tx.txers t).sendable = some x) :
    mux.tx.account x = (mux.tx.txers t).account ∧
      ∀ u, (mux.tx.txers u).sendable = some x → u = t := by
  obtain ⟨place, htied, haccount⟩ := tied_multiplex hs
  have hplace := (htied.held t x).mp hx
  have hfits := haccount x
  rw [hplace] at hfits
  refine ⟨hfits, fun u hu => ?_⟩
  have hplace' := (htied.held u x).mp hu
  rw [hplace] at hplace'
  cases hplace'
  rfl

theorem writes_eq_zero_of_write (hs : (side setup).Reachable System.anyEvent s) {t x : ℕ}
    (hx : s.mux.tx.txers t = .write x) : s.mux.tx.writes x = 0 := by
  have haccount := (held_alone (reachable_mux hs) (t := t) (x := x) (by rw [hx]; rfl)).1
  rw [hx] at haccount
  exact congrArg Prod.snd haccount

theorem txNext_written {st : TxState} {t x : ℕ} {pc pc' : TxPc} {a : TxAction}
    (h : txNext setup.toMuxSetup st t pc a = some (pc', .written x)) :
    pc = .write x ∧ a = .underlay none := by
  revert h
  generalize he : TxEffect.written x = e
  fun_cases txNext setup.toMuxSetup st t pc a
  all_goals intro h; cases h
  all_goals cases he
  exact ⟨rfl, rfl⟩

/-- A `txer` begins to write after it has registered. -/
theorem txNext_to_write {st : TxState} {t x : ℕ} {pc : TxPc} {a : TxAction} {e : TxEffect}
    (h : txNext setup.toMuxSetup st t pc a = some (.write x, e)) :
    pc = .addWaiter x ∨ pc = .setWriteTimeout x := by
  revert h
  generalize hpc' : TxPc.write x = pc'
  fun_cases txNext setup.toMuxSetup st t pc a
  all_goals intro h; cases h
  all_goals cases hpc'
  · exact .inl rfl
  · exact .inr rfl

/-- A write is counted when it returns, and then its frame is out. -/
theorem writes_step {act : Multiplex.Action} {mux : Multiplex}
    (hreturns : s.returns setup act = true)
    (h : s.mux.step setup.toMuxSetup act = some mux) (x : ℕ) :
    mux.tx.writes x = s.mux.tx.writes x ∨
      (∃ t, s.Out setup t x) ∧ mux.tx.writes x = s.mux.tx.writes x + 1 := by
  refine Multiplex.step_cases (P := fun mux => mux.tx.writes x = s.mux.tx.writes x ∨
    (∃ t, s.Out setup t x) ∧ mux.tx.writes x = s.mux.tx.writes x + 1) h ?_ ?_ ?_ ?_ ?_ ?_ ?_ ?_
  · intro y q queue _ _ _; exact .inl rfl
  · intro y q t _ _ _; exact .inl rfl
  · intro y err _; exact .inl rfl
  · intro t a pc e hact hnext
    subst hact
    by_cases he : e = .written x
    · subst he
      obtain ⟨hpc, rfl⟩ := txNext_written hnext
      refine .inr ⟨⟨t, hpc, ?_⟩, by simp [TxState.apply, TxState.setTxer]⟩
      simpa [returns, hpc] using hreturns
    · exact .inl (writes_apply _ _ _ he)
  · intro r a rx _ _; exact .inl rfl
  · intro ms _; exact .inl rfl
  · intro _; exact .inl rfl
  · intro _ _; exact .inl rfl

/-- A frame that is out stays so until its write returns. -/
theorem out_step {act : Multiplex.Action} {mux : Multiplex} {t x : ℕ}
    (hreturns : s.returns setup act = true) (h : s.mux.step setup.toMuxSetup act = some mux)
    (hout : s.Out setup t x) :
    (s.note setup act mux).Out setup t x ∨ mux.tx.writes x = s.mux.tx.writes x + 1 := by
  cases moves_step h t with
  | still _ hpc hprogress => exact .inl ⟨hpc.trans hout.1, hout.2.trans_eq hprogress.symm⟩
  | takes c _ hidle _ _ => rw [hout.1] at hidle; cases hidle
  | goes a pc e hact hnext _ _ _ =>
    subst hact
    rw [hout.1] at hnext
    cases a with
    | underlay err =>
      cases err with
      | none =>
        cases hnext
        refine .inr ?_
        simp only [Multiplex.step, hout.1, txNext] at h
        cases h
        simp [TxState.apply, TxState.setTxer]
      | some err =>
        -- a write whose frame is out does not fail
        simp only [returns, hout.1, Option.isSome_some, if_true, decide_eq_true_eq] at hreturns
        exact absurd hout.2 (Nat.not_le.mpr hreturns)
    | _ => cases hnext

/-- A write begins with nothing out. -/
theorem out_of_note (hs : (side setup).Reachable System.anyEvent s) {act : Multiplex.Action}
    {mux : Multiplex} {t x : ℕ} (h : s.mux.step setup.toMuxSetup act = some mux)
    (hout : (s.note setup act mux).Out setup t x) : s.Out setup t x := by
  obtain ⟨hpc', hlen⟩ := hout
  cases moves_step h t with
  | still _ hpc hprogress => exact ⟨hpc.symm.trans hpc', hlen.trans_eq hprogress⟩
  | takes c _ _ hpc _ => cases hpc.symm.trans hpc'
  | goes a pc e hact hnext _ _ hpc =>
    subst hact
    obtain rfl : pc = .write x := hpc.symm.trans hpc'
    obtain ⟨part, -, hpart⟩ := sent_eq hs t
    have hzero : s.progress t = 0 := by
      rcases txNext_to_write hnext with hold | hold <;> rw [hold] at hpart <;> exact hpart.1
    have hafter : s.progressAfter (.tx t a) t = 0 := by
      cases a with
      | underlay err => cases err <;> simp [progressAfter, hzero]
      | _ => exact hzero
    exact absurd (hafter ▸ hlen) (Nat.not_le.mpr (length_frame_pos setup x t))

theorem out_put {t n x : ℕ} (hpc : s.mux.tx.txers t = .write x)
    (hlt : s.progress t + n < (setup.frame x t).length) (u y : ℕ) :
    (s.put t n (setup.frame x t)).Out setup u y ↔ s.Out setup u y := by
  rcases eq_or_ne u t with rfl | hut
  · have hno : ∀ {p}, p < (setup.frame x u).length → ¬ (s.mux.tx.txers u = .write y ∧
        (setup.frame y u).length ≤ p) := by
      rintro p hp ⟨hy, hle⟩
      rw [hpc] at hy
      cases hy
      omega
    refine iff_of_false (fun h => hno hlt ⟨h.1, ?_⟩) (fun h => hno (by omega) h)
    simpa using h.2
  · unfold Out
    rw [show (s.put t n (setup.frame x t)).progress u = s.progress u from
      Function.update_of_ne hut _ _]
    rfl

theorem out_complete_of_ne {t x y : ℕ} (hpc : s.mux.tx.txers t = .write x) (hy : y ≠ x) (n u : ℕ)
    (frame : Bytes) (c : Carried) :
    (s.complete t n frame c).Out setup u y ↔ s.Out setup u y := by
  rcases eq_or_ne u t with rfl | hut
  · have hno : s.mux.tx.txers u ≠ .write y := by
      rw [hpc]
      exact fun h => hy (TxPc.write.inj h).symm
    exact iff_of_false (fun h => hno h.1) (fun h => hno h.1)
  · unfold Out
    rw [show (s.complete t n frame c).progress u = s.progress u from Function.update_of_ne hut _ _]
    rfl

/-- **No message is on the wire twice**, and the messages on the wire are those that were written,
or whose write is about to return. -/
theorem wire_nodup_iff (hs : (side setup).Reachable System.anyEvent s) :
    (s.wire.map Carried.sendable).Nodup ∧ ∀ x, x ∈ s.wire.map Carried.sendable ↔
      s.mux.tx.writes x = 1 ∨ ∃ t, s.Out setup t x := by
  refine hs.invariant_of_reachable (P := fun s => (s.wire.map Carried.sendable).Nodup ∧
    ∀ x, x ∈ s.wire.map Carried.sendable ↔ s.mux.tx.writes x = 1 ∨ ∃ t, s.Out setup t x) ?_ ?_
  · refine ⟨List.nodup_nil, fun x => iff_of_false (by simp [side]) ?_⟩
    rintro (h | ⟨t, h, -⟩) <;> cases h
  intro s e s' hs ih _ hstep
  obtain ⟨hnodup, hmem⟩ := ih
  have hs' : (side setup).Reachable System.anyEvent s' := hs.step trivial hstep
  revert hs'
  refine step_cases (P := fun s' => (side setup).Reachable System.anyEvent s' →
    (s'.wire.map Carried.sendable).Nodup ∧ ∀ x, x ∈ s'.wire.map Carried.sendable ↔
      s'.mux.tx.writes x = 1 ∨ ∃ t, s'.Out setup t x) hstep ?_ ?_ ?_
  · intro act mux _ hreturns hmux hs'
    refine ⟨hnodup, fun x => (hmem x).trans ⟨?_, ?_⟩⟩
    · rintro (hone | ⟨t, hout⟩)
      · have hle : mux.tx.writes x ≤ 1 := by
          obtain ⟨place, -, haccount⟩ := tied_multiplex (reachable_mux hs')
          exact (haccount.bounds x).1
        rcases writes_step hreturns hmux x with hsame | ⟨-, hmore⟩
        · exact .inl (hsame.trans hone)
        · omega
      · rcases out_step hreturns hmux hout with hout' | hmore
        · exact .inr ⟨t, hout'⟩
        · have hzero := writes_eq_zero_of_write hs hout.1
          exact .inl (by show mux.tx.writes x = 1; omega)
    · rintro (hone | ⟨t, hout⟩)
      · have hone : mux.tx.writes x = 1 := hone
        rcases writes_step hreturns hmux x with hsame | ⟨hout, -⟩
        · exact .inl (hsame.symm.trans hone)
        · exact .inr hout
      · exact .inr ⟨t, out_of_note hs hmux hout⟩
  · intro t n x hpc _ hlt _
    refine ⟨hnodup, fun y => (hmem y).trans (or_congr Iff.rfl (exists_congr fun u => ?_))⟩
    exact (out_put hpc hlt u y).symm
  · intro t n x c hpc hn heq hlast _
    have hahead : s.ahead setup t = some x := by rw [ahead_of_write hpc, if_pos (by omega)]
    obtain ⟨rfl, -⟩ := sendable_of_last (behind hs t) hahead hlast
    have hzero := writes_eq_zero_of_write hs hpc
    -- whoever else writes this sendable would hold it too
    have hnew : c.sendable ∉ s.wire.map Carried.sendable := by
      rw [hmem]
      rintro (hone | ⟨u, hout⟩)
      · omega
      · have hut := (held_alone (reachable_mux hs) (t := t) (x := c.sendable)
          (by rw [hpc]; rfl)).2 u (by rw [hout.1]; rfl)
        subst hut
        have := hout.2
        omega
    have hout : (s.complete t n (setup.frame c.sendable t) c).Out setup t c.sendable :=
      ⟨hpc, by rw [complete_progress]; omega⟩
    refine ⟨?_, fun y => ?_⟩
    · show ((s.wire ++ [c]).map Carried.sendable).Nodup
      rw [List.map_append, List.nodup_append]
      refine ⟨hnodup, List.nodup_singleton _, fun a ha b hb hab => hnew ?_⟩
      rw [List.mem_singleton.mp hb] at hab
      exact hab ▸ ha
    · show y ∈ (s.wire ++ [c]).map Carried.sendable ↔ _
      rw [List.map_append, List.mem_append, hmem y, List.map_singleton, List.mem_singleton]
      rcases eq_or_ne y c.sendable with rfl | hy
      · exact iff_of_true (.inr rfl) (.inr ⟨t, hout⟩)
      · rw [or_iff_left hy]
        exact or_congr Iff.rfl (exists_congr fun u => (out_complete_of_ne hpc hy n u _ c).symm)

/-- What its listener was told of as failed is not on the wire. -/
theorem not_mem_wire_of_err (hs : (side setup).Reachable System.anyEvent s) {x : ℕ}
    (herr : .err ∈ terminals (s.mux.tx.notices x)) : x ∉ s.wire.map Carried.sendable := by
  rw [(wire_nodup_iff hs).2]
  rintro (hone | ⟨t, hout⟩)
  · rw [writes_eq_zero_of_err (reachable_mux hs) herr] at hone
    cases hone
  · -- nothing was told of a sendable that is being written
    have haccount := (held_alone (reachable_mux hs) (t := t) (x := x) (by rw [hout.1]; rfl)).1
    rw [hout.1] at haccount
    have hterminals : terminals (s.mux.tx.notices x) = [] := congrArg Prod.fst haccount
    rw [hterminals] at herr
    cases herr

/-! ### What is read is delivered -/

/-- **An `rxer` delivers what it has read**: what it was at and what it gets is what it delivers
and what it is at. -/
theorem receive_log {rx rx' : RxState} {r : ℕ} {a : RxAction}
    (h : rx.receive setup.toMuxSetup r (rx.rxers r) a = some rx') :
    ∃ new, rx'.deliveries = rx.deliveries ++ new ∧ (∀ r', r' ≠ r → rx'.rxers r' = rx.rxers r') ∧
      (rx.rxers r).message.toList ++ a.message.toList =
        new.map Delivery.message ++ (rx'.rxers r).message.toList := by
  have hother : ∀ {st : RxState} {pc : RxPc}, st.rxers = rx.rxers →
      ∀ r', r' ≠ r → (st.setRxer r pc).rxers r' = rx.rxers r' := fun hst r' hr' =>
    (Function.update_of_ne hr' _ _).trans (congrFun hst r')
  have hself : ∀ {st : RxState} {pc : RxPc}, (st.setRxer r pc).rxers r = pc :=
    Function.update_self ..
  generalize hpc : rx.rxers r = pc at h
  cases pc with
  | reading =>
    cases a with
    | read m => cases h; exact ⟨[], (List.append_nil _).symm, hother rfl, by rw [hself]; rfl⟩
    | fail => cases h; exact ⟨[], (List.append_nil _).symm, hother rfl, by rw [hself]; rfl⟩
    | go | reap key => cases h
  | got m now =>
    cases a with
    | read m | reap key | fail => cases h
    | go =>
      simp only [RxState.receive] at h
      split at h
      · split at h
        · cases h; exact ⟨[], (List.append_nil _).symm, hother rfl, by rw [hself]; rfl⟩
        · cases h; exact ⟨[], (List.append_nil _).symm, hother rfl, by rw [hself]; rfl⟩
      · cases h
        exact ⟨[⟨m, dispatch setup.receiveHandlers m⟩], rfl, hother rfl, by rw [hself]; rfl⟩
  | reaping m now n =>
    cases a with
    | read m | fail => cases h
    | reap key => cases h; exact ⟨[], (List.append_nil _).symm, hother rfl, by rw [hself]; rfl⟩
    | go => cases h; exact ⟨[], (List.append_nil _).symm, hother rfl, by rw [hself]; rfl⟩
  | lookup m =>
    cases a with
    | read m | reap key | fail => cases h
    | go =>
      simp only [RxState.receive] at h
      cases h
      obtain ⟨target, htarget⟩ := RxState.takeReply_eq setup.toMuxSetup rx m
      rw [htarget]
      exact ⟨[⟨m, target⟩], rfl, hother rfl, by rw [hself]; rfl⟩
  | stopped => cases h

theorem rx_apply (setup : MuxSetup) (rx : RxState) (e : TxEffect) :
    (rx.apply setup e).deliveries = rx.deliveries ∧ (rx.apply setup e).rxers = rx.rxers := by
  cases e with
  | addWaiter x =>
    simp only [RxState.apply, RxState.addWaiter]
    split <;> exact ⟨rfl, rfl⟩
  | _ => exact ⟨rfl, rfl⟩

/-- What an action is for the receiving half. -/
theorem rx_step {act : Multiplex.Action} {mux : Multiplex}
    (h : s.mux.step setup.toMuxSetup act = some mux) :
    (readBy act = [] ∧ s.deliveredBy mux act = [] ∧ mux.rx.deliveries = s.mux.rx.deliveries ∧
      mux.rx.rxers = s.mux.rx.rxers) ∨
    ∃ r a, act = .rx r a ∧
      s.mux.rx.receive setup.toMuxSetup r (s.mux.rx.rxers r) a = some mux.rx := by
  refine Multiplex.step_cases (P := fun mux =>
    (readBy act = [] ∧ s.deliveredBy mux act = [] ∧ mux.rx.deliveries = s.mux.rx.deliveries ∧
      mux.rx.rxers = s.mux.rx.rxers) ∨
    ∃ r a, act = .rx r a ∧
      s.mux.rx.receive setup.toMuxSetup r (s.mux.rx.rxers r) a = some mux.rx)
      h ?_ ?_ ?_ ?_ ?_ ?_ ?_ ?_
  · intro x q queue hact _ _; subst hact; exact .inl ⟨rfl, rfl, rfl, rfl⟩
  · intro x q t hact _ _; subst hact; exact .inl ⟨rfl, rfl, rfl, rfl⟩
  · intro x err hact; subst hact; exact .inl ⟨rfl, rfl, rfl, rfl⟩
  · intro t a pc e hact _; subst hact; exact .inl ⟨rfl, rfl, rx_apply _ _ e⟩
  · intro r a rx hact hrx; exact .inr ⟨r, a, hact, hrx⟩
  · intro ms hact; subst hact; exact .inl ⟨rfl, rfl, rfl, rfl⟩
  · intro hact; subst hact; exact .inl ⟨rfl, rfl, rfl, rfl⟩
  · intro hact _; subst hact; exact .inl ⟨rfl, rfl, rfl, rfl⟩

/-- **What an `rxer` read is what it delivered, in this order, and at most one message more.** -/
theorem reads_eq (hs : (side setup).Reachable System.anyEvent s) (r : ℕ) :
    s.reads.keyed r = s.delivered.keyed r ++ (s.mux.rx.rxers r).message.toList := by
  refine hs.invariant (P := fun s => s.reads.keyed r =
    s.delivered.keyed r ++ (s.mux.rx.rxers r).message.toList) rfl ?_
  intro s e s' ih _ hstep
  refine step_cases (P := fun s' => s'.reads.keyed r =
    s'.delivered.keyed r ++ (s'.mux.rx.rxers r).message.toList) hstep ?_ ?_ ?_
  · intro act mux _ _ hmux
    simp only [note, List.keyed_append]
    rcases rx_step hmux with ⟨hread, hdel, -, hrxers⟩ | ⟨r', a, rfl, hrx⟩
    · rw [hread, hdel, hrxers, List.keyed_nil, List.append_nil, List.append_nil, ih]
    · obtain ⟨new, hnew, hother, hlog⟩ := receive_log hrx
      have hdel : s.deliveredBy mux (.rx r' a) = new.map fun d => (r', d.message) := by
        rw [deliveredBy, hnew, List.drop_left]
      rw [hdel, readBy, List.keyed_map (fun _ => r'), List.keyed_map (fun _ => r')]
      rcases eq_or_ne r r' with rfl | hr
      · simpa [ih] using hlog
      · simp [hr.symm, hother r hr, ih]
  · intro t n x _ _ _; exact ih
  · intro t n x c _ _ _ _; exact ih

/-- The log of deliveries is the channel's own. -/
theorem delivered_eq (hs : (side setup).Reachable System.anyEvent s) :
    s.delivered.map Prod.snd = s.mux.rx.deliveries.map Delivery.message := by
  refine hs.invariant (P := fun s =>
    s.delivered.map Prod.snd = s.mux.rx.deliveries.map Delivery.message) rfl ?_
  intro s e s' ih _ hstep
  refine step_cases (P := fun s' =>
    s'.delivered.map Prod.snd = s'.mux.rx.deliveries.map Delivery.message) hstep ?_ ?_ ?_
  · intro act mux _ _ hmux
    simp only [note, List.map_append, ih]
    rcases rx_step hmux with ⟨-, hdel, hsame, -⟩ | ⟨r', a, rfl, hrx⟩
    · rw [hdel, hsame, List.map_nil, List.append_nil]
    · obtain ⟨new, hnew, -, -⟩ := receive_log hrx
      rw [deliveredBy, hnew, List.drop_left, List.map_append, List.map_map]
      rfl
  · intro t n x _ _ _; exact ih
  · intro t n x c _ _ _ _; exact ih

end Side

end ZitiChannel
