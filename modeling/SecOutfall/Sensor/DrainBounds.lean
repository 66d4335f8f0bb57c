import SecOutfall.Sensor.Ring

/-! Bounds of the ring drain against a hostile control block.

The drain takes `SlotCount` and `SlotSize` from the ring each time it forms a slot address and
never compares them with the section it mapped. The accesses stay inside the section exactly for
the geometries whose last slot does. -/
namespace SecOutfall.Sensor
open Bytes
set_option autoImplicit false

def RingOp.Safe : RingOp → Prop
  | .remainder divisor => divisor ≠ 0
  | .access off len =>
    CLayout.sizeof SensorRingControl.fields ≤ off ∧ off + len ≤ sensorRingSize

/-- The values `RingDrainIndex` can have: 0 for a fresh ring, then whatever a drain of any content
wrote back. -/
inductive DrainIndex : UInt64 → Prop where
  | fresh : DrainIndex 0
  | drained (mem : Memory) {cursor cursor' : UInt64} (h : DrainIndex cursor)
      (hd : (drainRing mem cursor).cursor = some cursor') : DrainIndex cursor'

/-- The last slot of a ring with this geometry ends inside the section. -/
def FitsSection (slotSize slotCount : UInt32) : Prop :=
  slotCount ≠ 0 ∧
    (slotCount.toNat - 1) * (8 + slotSize).toNat + 48 ≤ sensorSlotCount * (8 + sensorSlotSize)

/-! ## Geometries that fit -/

theorem drainSlots_safe {mem : Memory}
    (hfits : FitsSection (mem.word32 SensorRingControl.slotSize) (mem.word32 SensorRingControl.slotCount))
    (writeIndex : UInt64) (left : ℕ) (drained : UInt64) :
    ∀ op ∈ (drainSlots mem writeIndex left drained).ops, op.Safe := by
  have hcount : (mem.word32 SensorRingControl.slotCount).toNat ≠ 0 := fun h0 =>
    hfits.1 (UInt32.toNat_inj.mp h0)
  have hslot : ∀ drained, drainSlot mem drained + 48 ≤ sensorRingSize := by
    intro drained
    have hidx := Nat.mod_lt drained.toNat (Nat.pos_of_ne_zero hcount)
    have hmul := Nat.mul_le_mul_right (8 + mem.word32 SensorRingControl.slotSize).toNat
      (Nat.le_sub_one_of_lt hidx)
    have hlast := hfits.2
    simp only [sensorSlotCount, sensorSlotSize] at hlast
    simp only [drainSlot, SensorRingControl.sizeof_eq, sensorRingSize_eq]
    omega
  induction left generalizing drained with
  | zero => intro op hop; exact absurd hop List.not_mem_nil
  | succ left ih =>
    have hin := hslot drained
    have hge : CLayout.sizeof SensorRingControl.fields ≤ drainSlot mem drained := Nat.le_add_right _ _
    unfold drainSlots
    split
    · simp only [if_neg hcount]
      split
      · simp only [List.forall_mem_cons, RingOp.Safe]
        exact ⟨hcount, ⟨hge, by omega⟩, by simp⟩
      · simp only [List.forall_mem_cons, RingOp.Safe]
        exact ⟨hcount, ⟨hge, by omega⟩, ⟨by omega, by omega⟩, ih (drained + 1)⟩
    · intro op hop
      exact absurd hop List.not_mem_nil

theorem drainRing_safe {mem : Memory} (cursor : UInt64)
    (h : mem.word32 SensorRingControl.state = 1 →
      FitsSection (mem.word32 SensorRingControl.slotSize) (mem.word32 SensorRingControl.slotCount)) :
    ∀ op ∈ (drainRing mem cursor).ops, op.Safe := by
  by_cases hstate : mem.word32 SensorRingControl.state = 1
  · simp only [drainRing_of_active cursor hstate]
    exact drainSlots_safe (h hstate) _ _ _
  · simp only [drainRing, ne_eq, hstate, not_false_eq_true, if_true]
    intro op hop
    exact absurd hop List.not_mem_nil

/-! ## Rings a hostile process can leave -/

def ringWith (state slotSize slotCount : UInt32) (writeIndex : UInt64) (slots : Memory) : Memory :=
  (((slots.write32 0 state).write32 4 slotSize).write32 8 slotCount).write64 16 writeIndex

section
variable (state slotSize slotCount : UInt32) (writeIndex : UInt64) (slots : Memory)

@[simp] theorem ringWith_state :
    (ringWith state slotSize slotCount writeIndex slots).word32 0 = state := by
  simp [ringWith, Memory.word32_write64_of_ne, Memory.word32_write32_of_ne, Memory.word32_write32]

@[simp] theorem ringWith_slotSize :
    (ringWith state slotSize slotCount writeIndex slots).word32 4 = slotSize := by
  simp [ringWith, Memory.word32_write64_of_ne, Memory.word32_write32_of_ne, Memory.word32_write32]

@[simp] theorem ringWith_slotCount :
    (ringWith state slotSize slotCount writeIndex slots).word32 8 = slotCount := by
  simp [ringWith, Memory.word32_write64_of_ne, Memory.word32_write32]

@[simp] theorem ringWith_writeIndex :
    (ringWith state slotSize slotCount writeIndex slots).word64 16 = writeIndex := by
  simp [ringWith, Memory.word64_write64]

theorem ringWith_word64 {off : ℕ} (h : 32 ≤ off) :
    (ringWith state slotSize slotCount writeIndex slots).word64 off = slots.word64 off := by
  simp only [ringWith]
  rw [Memory.word64_write64_of_ne _ _ (by omega), Memory.word64_write32_of_ne _ _ (by omega),
    Memory.word64_write32_of_ne _ _ (by omega), Memory.word64_write32_of_ne _ _ (by omega)]

end

/-- A control block that claims no slots moves the cursor to any index ahead of it. -/
theorem DrainIndex.jump {cursor target : UInt64} (h : DrainIndex cursor)
    (hahead : 0 < asI64 (target - cursor)) : DrainIndex target := by
  have hresync : (resync (ringWith 1 0 0 target Memory.zeroed) cursor).1 = target := by
    simp [resync, hahead]
  have hend : (drainSlots (ringWith 1 0 0 target Memory.zeroed) target 256 target).cursor = some target := by
    rw [drainSlots.eq_def]
    simp
  apply h.drained (ringWith 1 0 0 target Memory.zeroed)
  simp only [drainRing_of_active cursor (ringWith_state 1 0 0 target Memory.zeroed),
    SensorRingControl.writeIndex_off, ringWith_writeIndex, hresync]
  exact hend

theorem exists_remainder_zero (slotSize : UInt32) :
    ∃ mem cursor, mem.word32 SensorRingControl.state = 1 ∧
      mem.word32 SensorRingControl.slotSize = slotSize ∧
      mem.word32 SensorRingControl.slotCount = 0 ∧ DrainIndex cursor ∧
      RingOp.remainder 0 ∈ (drainRing mem cursor).ops := by
  have hreach : DrainIndex 0x8000000000000000 := by
    have hmax : DrainIndex 0x7FFFFFFFFFFFFFFF := DrainIndex.fresh.jump (by decide)
    exact hmax.jump (by decide)
  refine ⟨ringWith 1 slotSize 0 0x7FFFFFFFFFFFFFFF Memory.zeroed, 0x8000000000000000, by simp, by simp, by simp, hreach, ?_⟩
  have hstart : (resync (ringWith 1 slotSize 0 0x7FFFFFFFFFFFFFFF Memory.zeroed) 0x8000000000000000).1 = 0x8000000000000000 :=
    resync_of_le (by simp only [SensorRingControl.writeIndex_off, SensorRingControl.slotCount_off, ringWith_writeIndex,
      ringWith_slotCount]; decide)
  have hbehind : asI64 0x8000000000000000 < asI64 0x7FFFFFFFFFFFFFFF := by decide
  rw [drainRing_of_active _ (by simp), hstart, SensorRingControl.writeIndex_off,
    ringWith_writeIndex, drainSlots, if_pos hbehind]
  simp

theorem exists_access_last (slotSize slotCount : UInt32) (hcount : slotCount ≠ 0) :
    ∃ mem cursor, mem.word32 SensorRingControl.state = 1 ∧
      mem.word32 SensorRingControl.slotSize = slotSize ∧
      mem.word32 SensorRingControl.slotCount = slotCount ∧ DrainIndex cursor ∧
      RingOp.access (32 + (slotCount.toNat - 1) * (8 + slotSize).toNat + 8) 40 ∈
        (drainRing mem cursor).ops := by
  have hpos : 0 < slotCount.toNat := Nat.pos_of_ne_zero fun h0 => hcount (UInt32.toNat_inj.mp h0)
  have hlt := slotCount.toNat_lt
  set slot := 32 + (slotCount.toNat - 1) * (8 + slotSize).toNat with hslot
  set last : UInt64 := slotCount.toUInt64 - 1 with hlast
  have hlastNat : last.toNat = slotCount.toNat - 1 := by
    rw [hlast, UInt64.toNat_sub_of_le _ _ (UInt64.le_iff_toNat_le.mpr (by simp; omega))]
    simp
  set mem := ringWith 1 slotSize slotCount slotCount.toUInt64 (Memory.zeroed.write64 slot (last + 1))
    with hmem
  have hreach : DrainIndex last := by
    by_cases h0 : last = 0
    · rw [h0]; exact .fresh
    · apply DrainIndex.fresh.jump
      have : last.toNat ≠ 0 := fun h => h0 (UInt64.toNat_inj.mp h)
      rw [UInt64.sub_zero, asI64_of_lt (by omega)]
      omega
  have hstart : (resync mem last).1 = last := by
    apply resync_of_le
    have hone : slotCount.toUInt64 - last = 1 := by grind
    simp only [hmem, SensorRingControl.writeIndex_off, SensorRingControl.slotCount_off,
      ringWith_writeIndex, ringWith_slotCount, hone]
    rw [asI64_of_lt (by decide)]
    simp only [UInt64.toNat_one]
    omega
  have hbehind : asI64 last < asI64 slotCount.toUInt64 := by
    rw [asI64_of_lt (by omega), asI64_of_lt (by simp only [UInt32.toNat_toUInt64]; omega)]
    simp only [UInt32.toNat_toUInt64]
    omega
  have hat : drainSlot mem last = slot := by
    simp only [drainSlot, hmem, SensorRingControl.slotCount_off, SensorRingControl.slotSize_off, ringWith_slotCount, ringWith_slotSize, hlastNat,
      SensorRingControl.sizeof_eq, Nat.mod_eq_of_lt (Nat.sub_one_lt_of_lt hpos), hslot]
  have hseq : mem.word64 slot = last + 1 := by
    rw [hmem, ringWith_word64 _ _ _ _ _ (by omega), Memory.word64_write64]
  refine ⟨mem, last, by simp [hmem], by simp [hmem], by simp [hmem], hreach, ?_⟩
  have hlive : mem.word32 SensorRingControl.slotCount ≠ 0 := by simpa [hmem] using hcount
  have hwrite : mem.word64 SensorRingControl.writeIndex = slotCount.toUInt64 := by simp [hmem]
  rw [drainRing_of_active _ (by simp [hmem]), hstart, hwrite,
    drainSlots_of_committed 255 hbehind hlive (by rw [hat, hseq]), hat]
  simp

/-- Every drain of a ring with this control block, from every cursor an entry can have, stays in
the section and divides by no zero exactly when the ring is not live or its last slot fits. -/
theorem drain_stays_in_section_iff (state slotSize slotCount : UInt32) :
    (∀ (mem : Memory) (cursor : UInt64), mem.word32 SensorRingControl.state = state →
      mem.word32 SensorRingControl.slotSize = slotSize →
      mem.word32 SensorRingControl.slotCount = slotCount → DrainIndex cursor →
      ∀ op ∈ (drainRing mem cursor).ops, op.Safe) ↔
    state ≠ 1 ∨ FitsSection slotSize slotCount := by
  constructor
  · intro h
    by_cases hstate : state = 1
    · refine .inr ?_
      subst hstate
      have hcount : slotCount ≠ 0 := by
        rintro rfl
        obtain ⟨mem, cursor, hs, hz, hc, hi, hop⟩ := exists_remainder_zero slotSize
        exact h mem cursor hs hz hc hi _ hop rfl
      obtain ⟨mem, cursor, hs, hz, hc, hi, hop⟩ := exists_access_last slotSize slotCount hcount
      have hin := (h mem cursor hs hz hc hi _ hop).2
      rw [sensorRingSize_eq] at hin
      refine ⟨hcount, ?_⟩
      simp only [sensorSlotCount, sensorSlotSize]
      omega
    · exact .inl hstate
  · rintro h mem cursor rfl rfl rfl -
    apply drainRing_safe cursor
    intro hstate
    exact h.resolve_left (not_not.mpr hstate)

/-- Two claimed slots of a mebibyte, drained for the first time at write index 3: the resync jumps
to the second slot, far behind the section. -/
theorem wide_slots_leave_section :
    DrainIndex 0 ∧ ¬ ∀ op ∈ (drainRing (ringWith 1 0x100000 2 3 Memory.zeroed) 0).ops, op.Safe := by
  refine ⟨.fresh, fun h => ?_⟩
  have hop : RingOp.access 1048616 8 ∈ (drainRing (ringWith 1 0x100000 2 3 Memory.zeroed) 0).ops := by
    decide +kernel
  have hin := (h _ hop).2
  rw [sensorRingSize_eq] at hin
  omega

end SecOutfall.Sensor
