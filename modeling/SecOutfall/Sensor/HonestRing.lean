import SecOutfall.Sensor.Interleaving

/-! Rings that only `emit` writes.

Whatever the producers' steps are interleaved with, the control block keeps its geometry, and a
sequence word is 0 or names an index that was committed. -/
namespace SecOutfall.Sensor
set_option autoImplicit false

def slotAt (j : ℕ) : ℕ := 32 + j * 48

/-- A ring with the driver's geometry whose sequence words come from commits. -/
structure HonestRing (mem : Memory) (committed : UInt64 → Prop) : Prop where
  state : mem.word32 SensorRingControl.state = 1
  slotSize : mem.word32 SensorRingControl.slotSize = 40
  slotCount : mem.word32 SensorRingControl.slotCount = 4096
  monotonic : (mem.word64 SensorRingControl.writeIndex).toNat < 2 ^ 63
  slots : ∀ j < 4096, mem.word64 (slotAt j) = 0 ∨
    ∃ c, committed c ∧ c.toNat % 4096 = j ∧ mem.word64 (slotAt j) = c + 1

section
variable {mem mem' : Memory} {committed committed' : UInt64 → Prop}

theorem HonestRing.drainSlot_eq (h : HonestRing mem committed) (index : UInt64) :
    drainSlot mem index = slotAt (index.toNat % 4096) := by
  have hstride : (8 + (40 : UInt32)).toNat = 48 := by decide
  have hcount : (4096 : UInt32).toNat = 4096 := by decide
  simp only [drainSlot, h.slotSize, h.slotCount, SensorRingControl.sizeof_eq, hstride, hcount, slotAt]

theorem HonestRing.emitSlot_eq (h : HonestRing mem committed) {index : UInt64}
    (hindex : index.toNat < 2 ^ 63) : emitSlot mem index = slotAt (index.toNat % 4096) := by
  have hcount : mem.word32 RingControl.slotCount = 4096 := h.slotCount
  have hnat : (4096 : UInt32).toNat = 4096 := by decide
  simp only [emitSlot, hcount, hnat, asI64_of_lt hindex, RingControl.sizeof_eq, slotStride,
    slotPayloadSize, slotAt]
  omega

/-- A committed check that succeeds was for a committed index. -/
theorem HonestRing.committed_of_seq (h : HonestRing mem committed) {index : UInt64}
    (hindex : index.toNat < 2 ^ 63) (hseq : mem.word64 (drainSlot mem index) = index + 1) :
    committed index := by
  rw [h.drainSlot_eq] at hseq
  obtain hzero | ⟨c, hc, -, hword⟩ := h.slots (index.toNat % 4096) (Nat.mod_lt _ (by decide))
  · rw [hzero] at hseq
    have hnat := congrArg UInt64.toNat hseq
    rw [UInt64.toNat_add] at hnat
    simp only [UInt64.toNat_zero, UInt64.toNat_one] at hnat
    omega
  · rw [hword] at hseq
    have heq : c = index := by simpa using hseq
    exact heq ▸ hc

/-- Writes that touch neither the geometry nor a sequence word. -/
theorem HonestRing.of_frame (h : HonestRing mem committed)
    (hcontrol : ∀ off, off + 4 ≤ 12 → mem'.word32 off = mem.word32 off)
    (hindex : (mem'.word64 SensorRingControl.writeIndex).toNat < 2 ^ 63)
    (hslots : ∀ j < 4096, mem'.word64 (slotAt j) = mem.word64 (slotAt j)) :
    HonestRing mem' committed where
  state := by rw [hcontrol _ (by simp)]; exact h.state
  slotSize := by rw [hcontrol _ (by simp)]; exact h.slotSize
  slotCount := by rw [hcontrol _ (by simp)]; exact h.slotCount
  monotonic := hindex
  slots := by
    intro j hj
    rw [hslots j hj]
    exact h.slots j hj

/-- A write between the geometry and the slots: `WriteIndex` or `Dropped`. -/
theorem HonestRing.write_control (h : HonestRing mem committed) {off : ℕ} (v : UInt64)
    (hlow : 12 ≤ off) (hhigh : off + 8 ≤ 32)
    (hindex : ((mem.write64 off v).word64 SensorRingControl.writeIndex).toNat < 2 ^ 63) :
    HonestRing (mem.write64 off v) committed := by
  apply h.of_frame _ hindex
  · intro j _
    exact mem.word64_write64_of_ne v (by simp only [slotAt]; omega)
  · intro o ho
    exact mem.word32_write64_of_ne v (by omega)

theorem HonestRing.write_word (h : HonestRing mem committed) (j : ℕ) (call : Call) (word : ℕ) :
    HonestRing (Rings.writeWord mem (slotAt j) call word) committed ∧
      (Rings.writeWord mem (slotAt j) call word).word64 SensorRingControl.writeIndex =
        mem.word64 SensorRingControl.writeIndex := by
  have hframe : ∀ off n, off + n ≤ 32 ∨ (∃ i, off = slotAt i ∧ n = 8) →
      (Rings.writeWord mem (slotAt j) call word).read off n = mem.read off n := by
    intro off n hoff
    have hapart : ∀ o len, 8 ≤ o → o + len ≤ 48 → off + n ≤ slotAt j + o ∨ slotAt j + o + len ≤ off := by
      intro o len hlow hhigh
      rcases hoff with hcontrol | ⟨i, rfl, rfl⟩
      · simp only [slotAt]
        omega
      · simp only [slotAt]
        omega
    unfold Rings.writeWord
    split
    · exact mem.read_write32_of_ne _ (hapart 8 4 (by omega) (by omega))
    · exact mem.read_write32_of_ne _ (hapart 12 4 (by omega) (by omega))
    · exact mem.read_write64_of_ne _ (hapart 16 8 (by omega) (by omega))
    · exact mem.read_write64_of_ne _ (hapart 24 8 (by omega) (by omega))
    · exact mem.read_write64_of_ne _ (hapart 32 8 (by omega) (by omega))
    · exact mem.read_write64_of_ne _ (hapart 40 8 (by omega) (by omega))
  have hindex : (Rings.writeWord mem (slotAt j) call word).word64 SensorRingControl.writeIndex =
      mem.word64 SensorRingControl.writeIndex := by
    rw [Memory.word64, hframe _ 8 (.inl (by simp)), Memory.word64]
  refine ⟨h.of_frame ?_ ?_ ?_, hindex⟩
  · intro off hoff
    rw [Memory.word32, hframe off 4 (.inl (by omega)), Memory.word32]
  · rw [hindex]
    exact h.monotonic
  · intro i _
    rw [Memory.word64, hframe _ 8 (.inr ⟨i, rfl, rfl⟩), Memory.word64]

theorem HonestRing.mono (h : HonestRing mem committed) (hsub : ∀ c, committed c → committed' c) :
    HonestRing mem committed' where
  state := h.state
  slotSize := h.slotSize
  slotCount := h.slotCount
  monotonic := h.monotonic
  slots := by
    intro j hj
    obtain hzero | ⟨c, hc, hrest⟩ := h.slots j hj
    · exact .inl hzero
    · exact .inr ⟨c, hsub c hc, hrest⟩

theorem HonestRing.commit (h : HonestRing mem committed) (claimed : UInt64) (hc : committed claimed) :
    HonestRing (mem.write64 (slotAt (claimed.toNat % 4096)) (claimed + 1)) committed ∧
      (mem.write64 (slotAt (claimed.toNat % 4096)) (claimed + 1)).word64 SensorRingControl.writeIndex =
        mem.word64 SensorRingControl.writeIndex := by
  have hindex : (mem.write64 (slotAt (claimed.toNat % 4096)) (claimed + 1)).word64
      SensorRingControl.writeIndex = mem.word64 SensorRingControl.writeIndex :=
    mem.word64_write64_of_ne _ (by simp only [slotAt, SensorRingControl.writeIndex_off]; omega)
  have hcontrol : ∀ off, off + 4 ≤ 12 →
      (mem.write64 (slotAt (claimed.toNat % 4096)) (claimed + 1)).word32 off = mem.word32 off := by
    intro off hoff
    exact mem.word32_write64_of_ne _ (by simp only [slotAt]; omega)
  refine ⟨⟨?_, ?_, ?_, ?_, ?_⟩, hindex⟩
  · rw [hcontrol _ (by simp)]
    exact h.state
  · rw [hcontrol _ (by simp)]
    exact h.slotSize
  · rw [hcontrol _ (by simp)]
    exact h.slotCount
  · rw [hindex]
    exact h.monotonic
  · intro j hj
    by_cases hslot : j = claimed.toNat % 4096
    · subst hslot
      exact .inr ⟨claimed, hc, rfl, mem.word64_write64 _ _⟩
    · rw [mem.word64_write64_of_ne _ (by simp only [slotAt]; omega)]
      exact h.slots j hj

end

theorem activatedRing_honest (committed : UInt64 → Prop) : HonestRing activatedRing committed where
  state := by decide
  slotSize := by decide
  slotCount := by decide
  monotonic := by decide
  slots := by
    intro j _
    left
    simp only [activatedRing]
    rw [Memory.word64_write32_of_ne _ _ (by simp only [slotAt, SensorRingControl.state_off]; omega),
      Memory.word64_write32_of_ne _ _ (by simp only [slotAt, SensorRingControl.slotCount_off]; omega),
      Memory.word64_write32_of_ne _ _ (by simp only [slotAt, SensorRingControl.slotSize_off]; omega)]
    exact Memory.zeroed_word64 (slotAt j)

end SecOutfall.Sensor
