import SecOutfall.Sensor.Interleaving

/-! The two grains of the rings: a producer that nobody interrupts is `emit`, and a drain that
nobody interrupts does to a ring what `drainRing` says. -/
namespace SecOutfall.Sensor
open Runs
set_option autoImplicit false

/-! ## Producers -/

/-- One more thread inside `emit`, on the ring it left as `mem`. -/
def Rings.inEmit (s : Rings) (p : Producer) (mem : Memory) : Rings :=
  { s.setMemory p.va mem with producers := s.producers ++ [p] }

section
variable (s : Rings) (p : Producer) (mem : Memory)

theorem produce_inEmit :
    (s.inEmit p mem).produce s.producers.length =
      match p.phase with
      | .load => s.inEmit { p with phase := .account (mem.word64 p.slot) } mem
      | .account previous => s.inEmit { p with phase := .payload 0 }
          (if previous ≠ 0 ∧
              asI64 (p.claimed - (previous - 1)) ≥ ((mem.word32 RingControl.slotCount).toNat : ℤ) then
            mem.write64 RingControl.dropped (mem.word64 RingControl.dropped + 1)
          else mem)
      | .payload word => s.inEmit { p with phase := if word < 5 then .payload (word + 1) else .commit }
          (Rings.writeWord mem p.slot p.call word)
      | .commit => { s.setMemory p.va (mem.write64 p.slot (p.claimed + 1)) with
          committed := s.committed ++ [(p.va, p.claimed)] } := by
  have hget : (s.inEmit p mem).producers[s.producers.length]? = some p := by
    simp [Rings.inEmit]
  have hmem : (s.inEmit p mem).memory p.va = mem := by
    simp [Rings.inEmit, Rings.setMemory]
  rw [Rings.produce, hget]
  simp only [hmem]
  cases p.phase <;>
    simp [Rings.inEmit, Rings.setMemory, List.set_append_right, List.eraseIdx_append_of_length_le]

theorem produce_payload (word : ℕ) :
    Rings.step (s.inEmit { p with phase := .payload word } mem) (.produce s.producers.length) =
      s.inEmit { p with phase := if word < 5 then .payload (word + 1) else .commit }
        (Rings.writeWord mem p.slot p.call word) :=
  produce_inEmit s { p with phase := .payload word } mem

theorem repeats_payload :
    Repeats Rings.step (.produce s.producers.length) (s.inEmit { p with phase := .payload 0 } mem)
      (s.inEmit { p with phase := .commit } (writeSlot mem p.slot p.call)) :=
  (Repeats.single (produce_payload s p mem 0)).trans <|
    (Repeats.single (produce_payload s p _ 1)).trans <|
    (Repeats.single (produce_payload s p _ 2)).trans <|
    (Repeats.single (produce_payload s p _ 3)).trans <|
    (Repeats.single (produce_payload s p _ 4)).trans <|
    Repeats.single (produce_payload s p _ 5)

/-- Behind the claim, to the end. -/
theorem repeats_emit :
    let previous := mem.word64 p.slot
    let accounted :=
      if previous ≠ 0 ∧
          asI64 (p.claimed - (previous - 1)) ≥ ((mem.word32 RingControl.slotCount).toNat : ℤ) then
        mem.write64 RingControl.dropped (mem.word64 RingControl.dropped + 1)
      else mem
    Repeats Rings.step (.produce s.producers.length) (s.inEmit { p with phase := .load } mem)
      { s.setMemory p.va ((writeSlot accounted p.slot p.call).write64 p.slot (p.claimed + 1)) with
        committed := s.committed ++ [(p.va, p.claimed)] } := by
  intro previous accounted
  have hload : Repeats Rings.step (.produce s.producers.length) (s.inEmit { p with phase := .load } mem)
      (s.inEmit { p with phase := .account previous } mem) :=
    .single (produce_inEmit s { p with phase := .load } mem)
  have haccount : Repeats Rings.step (.produce s.producers.length)
      (s.inEmit { p with phase := .account previous } mem)
      (s.inEmit { p with phase := .payload 0 } accounted) :=
    .single (produce_inEmit s { p with phase := .account previous } mem)
  have hcommit : Repeats Rings.step (.produce s.producers.length)
      (s.inEmit { p with phase := .commit } (writeSlot accounted p.slot p.call))
      { s.setMemory p.va ((writeSlot accounted p.slot p.call).write64 p.slot (p.claimed + 1)) with
        committed := s.committed ++ [(p.va, p.claimed)] } :=
    .single (produce_inEmit s { p with phase := .commit } _)
  exact hload.trans (haccount.trans ((repeats_payload s p accounted).trans hcommit))

end

/-- A claim on an active ring. -/
theorem emit_inEmit (s : Rings) (va : ℕ) (call : Call)
    (hstate : (s.memory va).word32 RingControl.state = 1) {raised : Memory}
    (hraised : raised = (s.memory va).write64 RingControl.writeIndex
      ((s.memory va).word64 RingControl.writeIndex + 1))
    (hcount : raised.word32 RingControl.slotCount ≠ 0) :
    s.step (.emit va call) = s.inEmit ⟨va, call, (s.memory va).word64 RingControl.writeIndex,
      emitSlot raised ((s.memory va).word64 RingControl.writeIndex), .load⟩ raised := by
  subst hraised
  simp only [Rings.step, Rings.claim, if_neg (not_not.mpr hstate)]
  rw [if_neg hcount]
  rfl

/-- A producer that nobody interrupts leaves the ring as `emit` does. -/
theorem emit_uninterrupted (s : Rings) (va : ℕ) (call : Call) {mem : Memory}
    (h : emit (s.memory va) call = some mem) :
    Repeats Rings.step (.produce s.producers.length) (s.step (.emit va call))
      { s.setMemory va mem with
        committed := s.committed ++
          if (s.memory va).word32 RingControl.state = 1 then
            [(va, (s.memory va).word64 RingControl.writeIndex)]
          else [] } := by
  by_cases hstate : (s.memory va).word32 RingControl.state = 1
  · simp only [emit, if_neg (not_not.mpr hstate)] at h
    split at h
    · cases h
    · rename_i hcount
      rw [emit_inEmit s va call hstate rfl hcount, if_pos hstate, ← Option.some.inj h]
      exact repeats_emit s ⟨va, call, _, _, .load⟩ _
  · simp only [emit, if_pos hstate, Option.some.injEq] at h
    refine ⟨0, ?_⟩
    rw [← h, if_neg hstate, List.append_nil]
    simp only [List.replicate_zero, run_nil, Rings.step, Rings.claim, if_pos hstate, Rings.setMemory,
      Function.update_eq_self]

/-! ## Drains -/

/-- The drain at `k` is at `d`, and has consumed this much more. -/
def Rings.inDrain (s : Rings) (k : ℕ) (d : Drain) (more : List Consumed) : Rings :=
  { s with drains := s.drains.set k d, consumed := s.consumed ++ more }

section
variable {s : Rings} {k : ℕ} (hk : k < s.drains.length) {d : Drain} {ref : RingRef} {rest : List RingRef}
  (hrings : d.rings = ref :: rest) (more : List Consumed)
include hk hrings

theorem advance_inDrain (phase : DrainPhase) :
    Rings.step (s.inDrain k { d with phase } more) (.advance k) =
      (s.inDrain k { d with phase } more).atRing k { d with phase } ref rest := by
  have hget : (s.inDrain k { d with phase } more).drains[k]? = some { d with phase } := by
    simp [Rings.inDrain, hk]
  rw [Rings.step, Rings.advance_of_get hget, Rings.advanceAt]
  simp only [hrings]

section
variable {writeIndex drained : UInt64} {drainedNow : ℕ}

theorem advance_stop (hstop : ¬ (drainedNow < 256 ∧ asI64 drained < asI64 writeIndex) ∨
      (s.memory ref.va).word32 SensorRingControl.slotCount ≠ 0 ∧
        (s.memory ref.va).word64 (drainSlot (s.memory ref.va) drained) ≠ drained + 1) :
    Rings.step (s.inDrain k { d with phase := .slots writeIndex drained drainedNow } more) (.advance k) =
      s.inDrain k { d with phase := .writeBack drained } more := by
  rw [advance_inDrain hk hrings]
  by_cases hloop : drainedNow < 256 ∧ asI64 drained < asI64 writeIndex
  · obtain ⟨hcount, hseq⟩ := hstop.resolve_left (not_not.mpr hloop)
    simp only [Rings.atRing, Rings.checkSlot, Rings.enter, Rings.inDrain, List.set_set, if_pos hloop, hcount,
      ne_eq, hseq, not_false_eq_true, if_true, if_false]
  · simp only [Rings.atRing, Rings.checkSlot, if_neg hloop, Rings.enter, Rings.inDrain, List.set_set]

theorem advance_committed (hloop : drainedNow < 256 ∧ asI64 drained < asI64 writeIndex)
    (hcount : (s.memory ref.va).word32 SensorRingControl.slotCount ≠ 0)
    (hseq : (s.memory ref.va).word64 (drainSlot (s.memory ref.va) drained) = drained + 1) :
    Rings.step (s.inDrain k { d with phase := .slots writeIndex drained drainedNow } more) (.advance k) =
      s.inDrain k { d with
        phase := .payload writeIndex drained drainedNow (drainSlot (s.memory ref.va) drained) 0
          ⟨drained, 0, 0, 0, 0, 0, 0⟩ } more := by
  rw [advance_inDrain hk hrings]
  simp only [Rings.atRing, Rings.checkSlot, Rings.enter, Rings.inDrain, List.set_set, if_pos hloop, hcount,
    ne_eq, hseq, not_true_eq_false, if_false]

end

theorem advance_payload (writeIndex drained : UInt64) (drainedNow slot word : ℕ) (p : Promotion)
    (hword : word < 5) :
    Rings.step (s.inDrain k { d with phase := .payload writeIndex drained drainedNow slot word p } more)
        (.advance k) =
      s.inDrain k { d with
        phase := .payload writeIndex drained drainedNow slot (word + 1)
          (Rings.readWord (s.memory ref.va) slot p word) } more := by
  rw [advance_inDrain hk hrings]
  simp only [Rings.atRing, Rings.readPayload, if_pos hword, Rings.inDrain, List.set_set]

/-- The six payload reads promote what the slot holds. -/
theorem run_promote (writeIndex drained : UInt64) (drainedNow slot : ℕ) :
    run Rings.step (s.inDrain k { d with
        phase := .payload writeIndex drained drainedNow slot 0 ⟨drained, 0, 0, 0, 0, 0, 0⟩ } more)
      (List.replicate 6 (.advance k)) =
      s.inDrain k { d with
          phase := .slots writeIndex (drained + 1) (drainedNow + 1)
          drainedTotal := d.drainedTotal + 1 }
        (more ++ [.promoted ref (readPromotion (s.memory ref.va) drained slot)]) := by
  have hlast : ∀ p, Rings.step
      (s.inDrain k { d with phase := .payload writeIndex drained drainedNow slot 5 p } more) (.advance k) =
      s.inDrain k { d with
          phase := .slots writeIndex (drained + 1) (drainedNow + 1)
          drainedTotal := d.drainedTotal + 1 }
        (more ++ [.promoted ref (Rings.readWord (s.memory ref.va) slot p 5)]) := by
    intro p
    rw [advance_inDrain hk hrings]
    simp only [Rings.atRing, Rings.readPayload, lt_irrefl, if_false, Rings.inDrain, List.set_set,
      List.append_assoc]
  simp only [List.replicate_succ, List.replicate_zero, run_cons, run_nil]
  rw [advance_payload hk hrings more _ _ _ _ 0 _ (by decide), advance_payload hk hrings more _ _ _ _ 1 _ (by decide),
    advance_payload hk hrings more _ _ _ _ 2 _ (by decide), advance_payload hk hrings more _ _ _ _ 3 _ (by decide),
    advance_payload hk hrings more _ _ _ _ 4 _ (by decide), hlast]
  rfl

end

/-- The slot loop: `left` of its 256 rounds are still to come. -/
theorem repeats_slots {s : Rings} {k : ℕ} (hk : k < s.drains.length) {ref : RingRef} {rest : List RingRef}
    {writeIndex cursor : UInt64} {left : ℕ} (hleft : left ≤ 256) {drained : UInt64}
    (hcursor : (drainSlots (s.memory ref.va) writeIndex left drained).cursor = some cursor)
    {d : Drain} (hrings : d.rings = ref :: rest) (more : List Consumed) :
    Repeats Rings.step (.advance k)
      (s.inDrain k { d with phase := .slots writeIndex drained (256 - left) } more)
      (s.inDrain k { d with
          phase := .writeBack cursor
          drainedTotal := d.drainedTotal +
            .ofNat (drainSlots (s.memory ref.va) writeIndex left drained).promoted.length }
        (more ++ (drainSlots (s.memory ref.va) writeIndex left drained).promoted.map (.promoted ref))) := by
  induction left generalizing drained d more with
  | zero =>
    obtain rfl : drained = cursor := Option.some.inj hcursor
    have hover : ¬ (256 - 0 < 256 ∧ asI64 drained < asI64 writeIndex) := fun h => absurd h.1 (by decide)
    simpa [drainSlots] using Repeats.single (advance_stop hk hrings more (.inl hover))
  | succ left ih =>
    by_cases hloop : asI64 drained < asI64 writeIndex
    · by_cases hcount : (s.memory ref.va).word32 SensorRingControl.slotCount = 0
      · rw [drainSlots, if_pos hloop] at hcursor
        simp only [hcount, UInt32.toNat_zero, if_true] at hcursor
        cases hcursor
      · by_cases hseq : (s.memory ref.va).word64 (drainSlot (s.memory ref.va) drained) = drained + 1
        · rw [drainSlots_of_committed left hloop hcount hseq] at hcursor ⊢
          have hcheck := advance_committed hk hrings more ⟨(by omega : 256 - (left + 1) < 256), hloop⟩ hcount hseq
          have hpromote : Repeats Rings.step (.advance k) _ _ := ⟨6, run_promote hk hrings more writeIndex drained
            (256 - (left + 1)) (drainSlot (s.memory ref.va) drained)⟩
          have hnext : 256 - (left + 1) + 1 = 256 - left := by omega
          rw [hnext] at hpromote
          have hrest := ih (Nat.le_of_succ_le hleft) hcursor (d := { d with drainedTotal := d.drainedTotal + 1 })
            hrings (more ++ [.promoted ref (readPromotion (s.memory ref.va) drained
              (drainSlot (s.memory ref.va) drained))])
          have htotal : ∀ n : ℕ, d.drainedTotal + 1 + UInt64.ofNat n = d.drainedTotal + UInt64.ofNat (n + 1) := by
            intro n
            rw [UInt64.ofNat_add, UInt64.add_assoc, UInt64.add_comm 1]
            rfl
          rw [htotal, List.append_assoc] at hrest
          exact (Repeats.single hcheck).trans (hpromote.trans hrest)
        · have hdrain : (drainSlots (s.memory ref.va) writeIndex (left + 1) drained).promoted = [] ∧
              (drainSlots (s.memory ref.va) writeIndex (left + 1) drained).cursor = some drained := by
            have hdivisor : ((s.memory ref.va).word32 SensorRingControl.slotCount).toNat ≠ 0 :=
              fun h => hcount (UInt32.toNat_inj.mp h)
            simp only [drainSlots, if_pos hloop, if_neg hdivisor, ne_eq, hseq, not_false_eq_true, if_true,
              and_self]
          obtain rfl := Option.some.inj (hdrain.2.symm.trans hcursor)
          simpa [hdrain.1] using Repeats.single (advance_stop hk hrings more (.inr ⟨hcount, hseq⟩))
    · have hdrain : (drainSlots (s.memory ref.va) writeIndex (left + 1) drained).promoted = [] ∧
          (drainSlots (s.memory ref.va) writeIndex (left + 1) drained).cursor = some drained := by
        simp [drainSlots, hloop]
      obtain rfl := Option.some.inj (hdrain.2.symm.trans hcursor)
      simpa [hdrain.1] using Repeats.single (advance_stop hk hrings more (.inl fun h => hloop h.2))

/-- A drain that nobody interrupts leaves a ring behind as `drainRing` says: the same calls are
promoted, the same number is counted as dropped, and the ledger gets the same cursor. -/
theorem ring_uninterrupted {s : Rings} {k : ℕ} {d : Drain} (hget : s.drains[k]? = some d) {ref : RingRef}
    {rest : List RingRef} (hrings : d.rings = ref :: rest) (hphase : d.phase = .ring)
    (hactive : (s.memory ref.va).word32 SensorRingControl.state = 1) {drained : RingDrain} {cursor : UInt64}
    (hdrained : drainRing (s.memory ref.va) ref.cursor = drained) (hcursor : drained.cursor = some cursor) :
    Repeats Rings.step (.advance k) s
      { s with
        ledger := Rings.writeCursor ref.va cursor s.ledger
        drains := s.drains.set k ⟨rest, .ring, d.drainedTotal + .ofNat drained.promoted.length,
          d.droppedTotal + drained.dropped⟩
        consumed := s.consumed ++
          ((if drained.dropped = 0 then []
            else [.dropped ref.va ref.cursor (resync (s.memory ref.va) ref.cursor).1]) ++
          drained.promoted.map (.promoted ref)) } := by
  obtain ⟨hk, -⟩ := List.getElem?_eq_some_iff.mp hget
  rw [drainRing_of_active ref.cursor hactive] at hdrained
  obtain ⟨slots, hslots⟩ : ∃ slots, drainSlots (s.memory ref.va)
      ((s.memory ref.va).word64 SensorRingControl.writeIndex) 256 (resync (s.memory ref.va) ref.cursor).1 =
      slots := ⟨_, rfl⟩
  rw [hslots] at hdrained
  subst hdrained
  set start := resync (s.memory ref.va) ref.cursor with hstart
  set lost : List Consumed := if start.2 = 0 then [] else [.dropped ref.va ref.cursor start.1] with hlost
  have hbegin : Rings.step s (.advance k) = s.inDrain k { d with
      phase := .slots ((s.memory ref.va).word64 SensorRingControl.writeIndex) start.1 0
      droppedTotal := d.droppedTotal + start.2 } lost := by
    rw [Rings.step, Rings.advance_of_get hget, Rings.advanceAt, hrings]
    simp only [Rings.atRing, hphase, Rings.beginRing, hactive, ne_eq, not_true_eq_false, if_false, hrings]
    rfl
  have hloop := repeats_slots hk (d := { d with droppedTotal := d.droppedTotal + start.2 }) (le_refl 256)
    ((congrArg RingDrain.cursor hslots).trans hcursor) hrings lost
  rw [hslots, Nat.sub_self] at hloop
  have hback := advance_inDrain hk
    (d := { d with
      drainedTotal := d.drainedTotal + .ofNat slots.promoted.length
      droppedTotal := d.droppedTotal + start.2 })
    hrings (lost ++ slots.promoted.map (.promoted ref)) (.writeBack cursor)
  refine (Repeats.single hbegin).trans (hloop.trans (.single (hback.trans ?_)))
  simp only [Rings.atRing, Rings.inDrain, List.set_set]

end SecOutfall.Sensor
