import Mathlib.Data.List.Induction
import SecOutfall.Sensor.Ring
import SecOutfall.Wire.RoundTrip

/-! A behaviour call from the hook to the agent.

`emit` stores the api id in front of the thread id; the drain hands the first word of the payload
on as the thread id and the second as the api id. The record conveys what the drain handed on, so
a call arrives as it was made exactly when the two words agree. -/
namespace SecOutfall.Sensor
open Wire
set_option autoImplicit false

/-! ## One slot, two views -/

theorem countOnes_eq_one {v : UInt32} (h : countOnes v = 1) : ∃ k < 32, v.toNat = 2 ^ k := by
  obtain ⟨k, hk⟩ := List.length_eq_one_iff.mp h
  have hmem : ∀ i, i ∈ (List.range 32).filter (fun i => v.toNat.testBit i) ↔ i = k := by
    intro i
    rw [hk, List.mem_singleton]
  simp only [List.mem_filter, List.mem_range] at hmem
  refine ⟨k, ((hmem k).mpr rfl).1, Nat.eq_of_testBit_eq fun i => ?_⟩
  rw [Nat.testBit_two_pow]
  by_cases hi : i < 32
  · have hbit := hmem i
    simp only [hi, true_and] at hbit
    rw [Bool.eq_iff_iff, hbit, decide_eq_true_iff, eq_comm]
  · have hlt : v.toNat < 2 ^ i := v.toNat_lt.trans_le (Nat.pow_le_pow_right (by decide) (by omega))
    have hne : k ≠ i := by
      rintro rfl
      exact hi ((hmem k).mpr rfl).1
    rw [Nat.testBit_lt_two_pow hlt, decide_eq_false hne]

/-- Rust's euclidean remainder of the signed index and C's remainder of the unsigned one agree for
a power of two. -/
theorem asI64_emod_two_pow (v : UInt64) {k : ℕ} (hk : k < 32) :
    (asI64 v % ((2 ^ k : ℕ) : ℤ)).toNat = v.toNat % 2 ^ k := by
  have hpow : (2 : ℤ) ^ 64 = 2 ^ (64 - k) * ((2 ^ k : ℕ) : ℤ) := by
    rw [Nat.cast_pow, Nat.cast_ofNat, ← pow_add]
    congr 1
    omega
  have hmod : asI64 v % ((2 ^ k : ℕ) : ℤ) = (v.toNat : ℤ) % ((2 ^ k : ℕ) : ℤ) := by
    unfold asI64
    split
    · rfl
    · rw [hpow, Int.sub_mul_emod_self_right]
  rw [hmod, ← Int.natCast_mod, Int.toNat_natCast]

/-- A ring the handshake accepted and the driver activated. -/
structure LiveRing (mem : Memory) : Prop where
  state : mem.word32 RingControl.state = 1
  accepted : handshakeAccepts mem = true

theorem LiveRing.geometry {mem : Memory} (h : LiveRing mem) :
    mem.word32 RingControl.slotSize = 40 ∧ mem.word32 RingControl.slotCount ≠ 0 ∧
      ∃ k < 32, (mem.word32 RingControl.slotCount).toNat = 2 ^ k := by
  have hacc := h.accepted
  simp only [handshakeAccepts, slotPayloadSize, Bool.not_eq_true', Bool.or_eq_false_iff,
    bne_eq_false_iff_eq, beq_eq_false_iff_ne] at hacc
  obtain ⟨⟨hsize, hcount⟩, hones⟩ := hacc
  exact ⟨UInt32.toNat_inj.mp hsize, hcount, countOnes_eq_one hones⟩

theorem LiveRing.emitSlot_eq {mem : Memory} (h : LiveRing mem) (index : UInt64) :
    emitSlot mem index = drainSlot mem index := by
  obtain ⟨hsize, -, k, hk, hcount⟩ := h.geometry
  have hstride : (8 + (40 : UInt32)).toNat = 48 := by decide
  simp only [RingControl.slotSize_off, RingControl.slotCount_off] at hsize hcount
  simp only [emitSlot, drainSlot, RingControl.sizeof_eq, SensorRingControl.sizeof_eq,
    RingControl.slotCount_off, SensorRingControl.slotCount_off, SensorRingControl.slotSize_off, hcount,
    hsize, asI64_emod_two_pow index hk, slotStride, slotPayloadSize, hstride]

/-! ## What one call leaves in the ring -/

def slotCall (mem : Memory) (slot : ℕ) : Call :=
  { api := mem.word32 (slot + 8)
    threadId := mem.word32 (slot + 12)
    arg0 := mem.word64 (slot + 16)
    arg1 := mem.word64 (slot + 24)
    arg2 := mem.word64 (slot + 32)
    arg3 := mem.word64 (slot + 40) }

theorem readPromotion_eq (mem : Memory) (drained : UInt64) (slot : ℕ) :
    readPromotion mem drained slot =
      ⟨drained, (slotCall mem slot).api, (slotCall mem slot).threadId, (slotCall mem slot).arg0,
        (slotCall mem slot).arg1, (slotCall mem slot).arg2, (slotCall mem slot).arg3⟩ := rfl

theorem slotCall_writeSlot (mem : Memory) (slot : ℕ) (call : Call) :
    slotCall (writeSlot mem slot call) slot = call := by
  simp [slotCall, writeSlot, Nat.add_assoc, Memory.word32_write64_of_ne, Memory.word32_write32_of_ne,
    Memory.word32_write32, Memory.word64_write64_of_ne, Memory.word64_write64]

theorem read_writeSlot_of_ne (mem : Memory) {slot off n : ℕ} (call : Call)
    (h : off + n ≤ slot + 8 ∨ slot + 48 ≤ off) :
    (writeSlot mem slot call).read off n = mem.read off n := by
  simp only [writeSlot]
  rw [Memory.read_write64_of_ne _ _ (by omega), Memory.read_write64_of_ne _ _ (by omega),
    Memory.read_write64_of_ne _ _ (by omega), Memory.read_write64_of_ne _ _ (by omega),
    Memory.read_write32_of_ne _ _ (by omega), Memory.read_write32_of_ne _ _ (by omega)]

theorem slotCall_congr {mem mem' : Memory} {slot : ℕ}
    (h : ∀ off n, slot + 8 ≤ off → off + n ≤ slot + 48 → mem'.read off n = mem.read off n) :
    slotCall mem' slot = slotCall mem slot := by
  simp only [slotCall, Memory.word32, Memory.word64]
  rw [h (slot + 8) 4 (by omega) (by omega), h (slot + 12) 4 (by omega) (by omega),
    h (slot + 16) 8 (by omega) (by omega), h (slot + 24) 8 (by omega) (by omega),
    h (slot + 32) 8 (by omega) (by omega), h (slot + 40) 8 (by omega) (by omega)]

/-- The effect of an `emit`: the next index is claimed, its slot is committed with the call, and
outside that slot only the write index and the dropped counter may differ. -/
structure Emits (mem mem' : Memory) (call : Call) : Prop where
  writeIndex : mem'.word64 RingControl.writeIndex = mem.word64 RingControl.writeIndex + 1
  sequence : mem'.word64 (emitSlot mem (mem.word64 RingControl.writeIndex)) =
    mem.word64 RingControl.writeIndex + 1
  payload : slotCall mem' (emitSlot mem (mem.word64 RingControl.writeIndex)) = call
  frame : ∀ off n, off + n ≤ 16 ∨ 32 ≤ off ∧
      (off + n ≤ emitSlot mem (mem.word64 RingControl.writeIndex) ∨
        emitSlot mem (mem.word64 RingControl.writeIndex) + 48 ≤ off) →
    mem'.read off n = mem.read off n

theorem emitSlot_ge (mem : Memory) (claimed : UInt64) : 32 ≤ emitSlot mem claimed :=
  Nat.le_add_right _ _

theorem emit_emits {mem : Memory} (h : LiveRing mem) (call : Call) :
    ∃ mem', emit mem call = some mem' ∧ Emits mem mem' call := by
  set claimed := mem.word64 RingControl.writeIndex with hclaimed
  set slot := emitSlot mem claimed with hslot
  have hge : 32 ≤ slot := emitSlot_ge mem claimed
  -- the claim leaves the geometry alone
  set claim := mem.write64 RingControl.writeIndex (claimed + 1) with hclaim
  have hcount : claim.word32 RingControl.slotCount = mem.word32 RingControl.slotCount :=
    Memory.word32_write64_of_ne _ _ (by simp)
  have hat : emitSlot claim claimed = slot := by simp only [hslot, emitSlot, hcount]
  -- whether or not the overwritten slot is counted as dropped
  obtain ⟨counted, hemit, hframe⟩ : ∃ counted : Memory,
      emit mem call = some ((writeSlot counted slot call).write64 slot (claimed + 1)) ∧
      ∀ off n, off + n ≤ 24 ∨ 32 ≤ off → counted.read off n = claim.read off n := by
    simp only [emit, h.state, ne_eq, not_true_eq_false, if_false, ← hclaimed, ← hclaim, hcount,
      h.geometry.2.1, hat]
    split
    · refine ⟨_, rfl, fun off n hoff => Memory.read_write64_of_ne _ _ ?_⟩
      simpa using hoff
    · exact ⟨_, rfl, fun off n _ => rfl⟩
  refine ⟨_, hemit, ⟨?_, ?_, ?_, ?_⟩⟩
  · rw [← hclaimed, Memory.word64_write64_of_ne _ _ (by simp; omega), Memory.word64,
      read_writeSlot_of_ne _ _ (by simp; omega), hframe _ _ (by simp), ← Memory.word64, hclaim,
      Memory.word64_write64]
  · rw [← hclaimed, ← hslot, Memory.word64_write64]
  · rw [← hclaimed, ← hslot]
    rw [slotCall_congr fun off n hlo _ => Memory.read_write64_of_ne _ _ (.inr hlo), slotCall_writeSlot]
  · intro off n hoff
    rw [← hclaimed, ← hslot] at hoff
    rw [Memory.read_write64_of_ne _ _ (by omega), read_writeSlot_of_ne _ _ (by omega),
      hframe _ _ (by omega), hclaim, Memory.read_write64_of_ne _ _ (by simp; omega)]

/-! ## What a run of calls leaves in the ring -/

theorem Emits.live {mem mem' : Memory} {call : Call} (he : Emits mem mem' call) (h : LiveRing mem) :
    LiveRing mem' := by
  have hword : ∀ off, off + 4 ≤ 16 → mem'.word32 off = mem.word32 off := by
    intro off hoff
    rw [Memory.word32, he.frame off 4 (.inl hoff), Memory.word32]
  refine ⟨?_, ?_⟩
  · rw [hword _ (by simp), h.state]
  · have hacc := h.accepted
    rw [handshakeAccepts] at hacc ⊢
    rw [hword _ (by simp), hword _ (by simp)]
    exact hacc

theorem Emits.drainSlot_eq {mem mem' : Memory} {call : Call} (he : Emits mem mem' call)
    (index : UInt64) : drainSlot mem' index = drainSlot mem index := by
  have hcount := he.frame SensorRingControl.slotCount 4 (.inl (by simp))
  have hsize := he.frame SensorRingControl.slotSize 4 (.inl (by simp))
  simp only [drainSlot, Memory.word32, hcount, hsize]

theorem LiveRing.drainSlot_eq {mem : Memory} (h : LiveRing mem) (index : UInt64) :
    drainSlot mem index =
      32 + index.toNat % (mem.word32 SensorRingControl.slotCount).toNat * 48 := by
  have hsize : mem.word32 SensorRingControl.slotSize = 40 := h.geometry.1
  have hstride : (8 + (40 : UInt32)).toNat = 48 := by decide
  simp only [drainSlot, hsize, SensorRingControl.sizeof_eq, hstride]

theorem LiveRing.drainSlot_disjoint {mem : Memory} (h : LiveRing mem) (i j : UInt64) :
    drainSlot mem i = drainSlot mem j ∨ drainSlot mem i + 48 ≤ drainSlot mem j ∨
      drainSlot mem j + 48 ≤ drainSlot mem i := by
  rw [h.drainSlot_eq, h.drainSlot_eq]
  omega

/-- A slot that is committed for the index of a call of the run holds that call, unless the 64-bit
index was claimed again since. -/
structure EmitsAll (mem mem' : Memory) (calls : List Call) : Prop where
  live : LiveRing mem'
  writeIndex : mem'.word64 RingControl.writeIndex =
    mem.word64 RingControl.writeIndex + .ofNat calls.length
  slots : ∀ k call, calls[k]? = some call → calls.length ≤ k + 2 ^ 64 →
    let index := mem.word64 RingControl.writeIndex + .ofNat k
    mem'.word64 (drainSlot mem' index) = index + 1 → slotCall mem' (drainSlot mem' index) = call

theorem EmitsAll.snoc {mem mid mem' : Memory} {calls : List Call} {last : Call}
    (hall : EmitsAll mem mid calls) (he : Emits mid mem' last) :
    EmitsAll mem mem' (calls ++ [last]) := by
  set base := mem.word64 RingControl.writeIndex with hbase
  have hclaimed : mid.word64 RingControl.writeIndex = base + .ofNat calls.length := hall.writeIndex
  have hat : emitSlot mid (mid.word64 RingControl.writeIndex) =
      drainSlot mem' (base + .ofNat calls.length) := by
    rw [hall.live.emitSlot_eq, he.drainSlot_eq, hclaimed]
  refine ⟨he.live hall.live, ?_, ?_⟩
  · rw [he.writeIndex, hclaimed, List.length_append, List.length_singleton, UInt64.add_assoc,
      UInt64.ofNat_add]
    rfl
  · intro k call hk hnewest index hcommitted
    rw [List.length_append, List.length_singleton] at hnewest
    rcases Nat.lt_or_ge k calls.length with hlt | hge
    · rw [List.getElem?_append_left hlt] at hk
      rcases (he.live hall.live).drainSlot_disjoint index (base + .ofNat calls.length) with hsame | hapart
      · -- the slot was taken over by the last call, whose sequence is another one
        have hlast := he.sequence
        rw [hat, hclaimed, ← hsame, hcommitted] at hlast
        exfalso
        have hofNat : UInt64.ofNat k = UInt64.ofNat calls.length := by
          simp only [index] at hlast
          grind
        have hnat := congrArg UInt64.toNat hofNat
        simp only [UInt64.toNat_ofNat'] at hnat
        omega
      · have hframe : ∀ off n, drainSlot mem' index ≤ off → off + n ≤ drainSlot mem' index + 48 →
            mem'.read off n = mid.read off n := by
          intro off n hlo hhi
          refine he.frame off n (.inr ⟨?_, ?_⟩)
          · have := (he.live hall.live).drainSlot_eq index
            omega
          · rw [hat]
            omega
        have hword : mem'.word64 (drainSlot mem' index) = mid.word64 (drainSlot mem' index) := by
          rw [Memory.word64, hframe _ 8 (by omega) (by omega), Memory.word64]
        rw [slotCall_congr fun off n hlo hhi => hframe off n (by omega) hhi, he.drainSlot_eq]
        rw [hword, he.drainSlot_eq] at hcommitted
        exact hall.slots k call hk (by omega) hcommitted
    · have hkeq : k = calls.length := by
        have := (List.getElem?_eq_some_iff.mp hk).1
        simp only [List.length_append, List.length_singleton] at this
        omega
      subst hkeq
      rw [List.getElem?_concat_length, Option.some_inj] at hk
      subst hk
      have hpayload := he.payload
      rwa [hat] at hpayload

theorem emitAll_emitsAll {mem : Memory} (h : LiveRing mem) (calls : List Call) :
    ∃ mem', emitAll mem calls = some mem' ∧ EmitsAll mem mem' calls := by
  induction calls using List.reverseRecOn with
  | nil =>
    refine ⟨mem, rfl, h, ?_, ?_⟩
    · simp
    · intro k call hk
      simp at hk
  | append_singleton calls last ih =>
    obtain ⟨mid, hrun, hall⟩ := ih
    obtain ⟨mem', hlast, he⟩ := emit_emits hall.live last
    refine ⟨mem', ?_, hall.snoc he⟩
    simp only [emitAll] at hrun ⊢
    simp [List.foldlM_append, hrun, hlast]

/-! ## What the drain promotes -/

/-- The drain promotes committed slots only, each as it reads them. -/
theorem drainSlots_promoted {mem : Memory} {writeIndex : UInt64} {left : ℕ} {drained : UInt64}
    {p : Promotion} (hp : p ∈ (drainSlots mem writeIndex left drained).promoted) :
    mem.word64 (drainSlot mem p.index) = p.index + 1 ∧
      p = readPromotion mem p.index (drainSlot mem p.index) := by
  induction left generalizing drained with
  | zero => exact absurd hp List.not_mem_nil
  | succ left ih =>
    unfold drainSlots at hp
    split at hp
    · simp only at hp
      split at hp
      · exact absurd hp List.not_mem_nil
      · split at hp
        · exact absurd hp List.not_mem_nil
        · rename_i hcommitted
          rcases List.mem_cons.mp hp with rfl | hrest
          · exact ⟨not_not.mp hcommitted, rfl⟩
          · exact ih hrest
    · exact absurd hp List.not_mem_nil

theorem mem_promotions {ledger : List RingEntry} {rings : ℕ → Memory} {entry : RingEntry}
    {p : Promotion} {va : ℕ} (hva : entry.ringKernelVa = some va) :
    (entry, p) ∈ promotions ledger rings ↔
      entry ∈ snapshot ledger ∧ p ∈ (drainRing (rings va) entry.ringDrainIndex).promoted := by
  simp only [promotions, List.mem_flatMap, List.mem_map, Prod.mk.injEq]
  constructor
  · rintro ⟨e, he, q, hq, rfl, rfl⟩
    rw [drainEntry, hva] at hq
    exact ⟨he, hq⟩
  · rintro ⟨he, hq⟩
    refine ⟨entry, he, p, ?_, rfl, rfl⟩
    rw [drainEntry, hva]
    exact hq

section
variable {mem : Memory} {calls : List Call} {k : ℕ} {call : Call}
variable (ledger : List RingEntry) (rings : ℕ → Memory) {entry : RingEntry} {va : ℕ} {p : Promotion}

theorem promotion_swaps (hlive : LiveRing mem) (hemit : emitAll mem calls = some (rings va))
    (hk : calls[k]? = some call) (hnewest : calls.length ≤ k + 2 ^ 64)
    (hva : entry.ringKernelVa = some va) (hp : (entry, p) ∈ promotions ledger rings)
    (hindex : p.index = mem.word64 RingControl.writeIndex + .ofNat k) :
    p = ⟨p.index, call.api, call.threadId, call.arg0, call.arg1, call.arg2, call.arg3⟩ := by
  obtain ⟨mem', hrun, hall⟩ := emitAll_emitsAll hlive calls
  obtain rfl : mem' = rings va := Option.some_inj.mp (hrun.symm.trans hemit)
  have hpromoted := ((mem_promotions hva).mp hp).2
  simp only [drainRing_of_active _ hall.live.state] at hpromoted
  obtain ⟨hcommitted, hread⟩ := drainSlots_promoted hpromoted
  have hcall : slotCall (rings va) (drainSlot (rings va) p.index) = call := by
    rw [hindex] at hcommitted ⊢
    exact hall.slots k call hk hnewest hcommitted
  rw [readPromotion_eq, hcall] at hread
  exact hread

theorem promotedRecord_decode (entry : RingEntry) (p : Promotion) (stamp : Stamp) (tail : List UInt8) :
    decode (promotedRecord entry p stamp ++ tail) =
      .ok ⟨.behaviorCall, entry.pid, stamp.sequence, stamp.time, entry.createTime, truncNone,
        .behaviorCall p.threadId p.api p.arg0 p.arg1 p.arg2 p.arg3⟩ :=
  (conveys_emitBehaviorCall entry.pid entry.createTime p.threadId p.api p.arg0 p.arg1 p.arg2 p.arg3
    stamp).decoded tail

/-- Whatever calls a process makes, in any ring and from any cursor: a promoted call decodes to
the emitted thread id, api id and arguments exactly when the two ids are equal. -/
theorem promoted_call_decodes_iff (hlive : LiveRing mem) (hemit : emitAll mem calls = some (rings va))
    (hk : calls[k]? = some call) (hnewest : calls.length ≤ k + 2 ^ 64)
    (hva : entry.ringKernelVa = some va) (hp : (entry, p) ∈ promotions ledger rings)
    (hindex : p.index = mem.word64 RingControl.writeIndex + .ofNat k) (stamp : Stamp)
    (tail : List UInt8) :
    decode (promotedRecord entry p stamp ++ tail) =
        .ok ⟨.behaviorCall, entry.pid, stamp.sequence, stamp.time, entry.createTime, truncNone,
          .behaviorCall call.threadId call.api call.arg0 call.arg1 call.arg2 call.arg3⟩ ↔
      call.api = call.threadId := by
  rw [promotedRecord_decode, promotion_swaps ledger rings hlive hemit hk hnewest hva hp hindex]
  simp only [Except.ok.injEq, Record.mk.injEq, Payload.behaviorCall.injEq, true_and, and_true]
  constructor
  · rintro ⟨h, -⟩
    exact h
  · intro h
    exact ⟨h, h.symm⟩

/-- A call emitted into a ring that was drained up to it is promoted. -/
theorem emitted_call_promoted (hlive : LiveRing mem) (hemit : emitAll mem [call] = some (rings va))
    (hentry : entry ∈ snapshot ledger) (hva : entry.ringKernelVa = some va)
    (hcursor : entry.ringDrainIndex = mem.word64 RingControl.writeIndex)
    (hmax : mem.word64 RingControl.writeIndex ≠ 0x7FFFFFFFFFFFFFFF) :
    ∃ p, (entry, p) ∈ promotions ledger rings ∧ p.index = mem.word64 RingControl.writeIndex := by
  obtain ⟨mem', hrun, he⟩ := emit_emits hlive call
  obtain rfl : mem' = rings va := by
    simp only [emitAll, List.foldlM_cons, List.foldlM_nil, hrun] at hemit
    exact Option.some_inj.mp hemit
  set base := mem.word64 RingControl.writeIndex with hbase
  have hlive' := he.live hlive
  have hwrite : (rings va).word64 SensorRingControl.writeIndex = base + 1 := he.writeIndex
  have hcount : (rings va).word32 SensorRingControl.slotCount ≠ 0 := hlive'.geometry.2.1
  have hpos : 0 < ((rings va).word32 SensorRingControl.slotCount).toNat :=
    Nat.pos_of_ne_zero fun h0 => hcount (UInt32.toNat_inj.mp h0)
  have hstart : (resync (rings va) base).1 = base := by
    have hone : base + 1 - base = 1 := by grind
    apply resync_of_le
    rw [hwrite, hone, asI64_of_lt (by decide)]
    simp only [UInt64.toNat_one]
    omega
  have hbehind : asI64 base < asI64 (base + 1) := asI64_lt_succ hmax
  have hcommitted : (rings va).word64 (drainSlot (rings va) base) = base + 1 := by
    have hseq := he.sequence
    rwa [hlive.emitSlot_eq, ← he.drainSlot_eq] at hseq
  refine ⟨readPromotion (rings va) base (drainSlot (rings va) base), (mem_promotions hva).mpr ⟨hentry, ?_⟩,
    rfl⟩
  rw [hcursor, drainRing_of_active _ hlive'.state, hstart, hwrite,
    drainSlots_of_committed 255 hbehind hcount hcommitted]
  exact List.mem_cons_self

end

theorem activatedRing_live : LiveRing activatedRing := ⟨by decide, by decide⟩

def freshHost : RingEntry := ⟨true, some 0, 0, 4321, 77⟩

theorem first_call_promoted (call : Call) :
    ∃ (ring : Memory) (p : Promotion), emitAll activatedRing [call] = some ring ∧
      (freshHost, p) ∈ promotions [freshHost] (fun _ => ring) ∧ p.index = 0 := by
  obtain ⟨ring, hemit, -⟩ := emitAll_emitsAll activatedRing_live [call]
  have hentry : freshHost ∈ snapshot [freshHost] := by decide
  obtain ⟨p, hp, hindex⟩ := emitted_call_promoted [freshHost] (fun _ => ring) activatedRing_live hemit
    hentry rfl (by decide) (by decide)
  exact ⟨ring, p, hemit, hp, hindex.trans (by decide)⟩

/-- Thread 7 calls api 7. -/
theorem equal_ids_decode :
    ∃ (ring : Memory) (p : Promotion), emitAll activatedRing [⟨7, 7, 1, 2, 3, 4⟩] = some ring ∧
      (freshHost, p) ∈ promotions [freshHost] (fun _ => ring) ∧
      decode (promotedRecord freshHost p ⟨1, 9⟩ ++ []) =
        .ok ⟨.behaviorCall, 4321, 1, 9, 77, truncNone, .behaviorCall 7 7 1 2 3 4⟩ := by
  obtain ⟨ring, p, hemit, hp, hindex⟩ := first_call_promoted ⟨7, 7, 1, 2, 3, 4⟩
  refine ⟨ring, p, hemit, hp, ?_⟩
  have hiff := promoted_call_decodes_iff [freshHost] (fun _ => ring) activatedRing_live hemit
    (k := 0) rfl (by decide) rfl hp (by rw [hindex]; decide) ⟨1, 9⟩ []
  exact hiff.mpr rfl

/-- Thread 4242 calls api 3: the agent sees thread 3 call api 4242. -/
theorem first_call_swapped :
    ∃ (ring : Memory) (p : Promotion), emitAll activatedRing [⟨3, 4242, 1, 2, 3, 4⟩] = some ring ∧
      (freshHost, p) ∈ promotions [freshHost] (fun _ => ring) ∧ p.index = 0 ∧
      decode (promotedRecord freshHost p ⟨1, 9⟩) =
        .ok ⟨.behaviorCall, 4321, 1, 9, 77, truncNone, .behaviorCall 3 4242 1 2 3 4⟩ ∧
      decode (promotedRecord freshHost p ⟨1, 9⟩) ≠
        .ok ⟨.behaviorCall, 4321, 1, 9, 77, truncNone, .behaviorCall 4242 3 1 2 3 4⟩ := by
  obtain ⟨ring, p, hemit, hp, hindex⟩ := first_call_promoted ⟨3, 4242, 1, 2, 3, 4⟩
  have hswap := promotion_swaps [freshHost] (fun _ => ring) activatedRing_live hemit (k := 0) rfl
    (by decide) rfl hp (by rw [hindex]; decide)
  have hdecode := promotedRecord_decode freshHost p ⟨1, 9⟩ []
  rw [List.append_nil, hswap] at hdecode
  refine ⟨ring, p, hemit, hp, hindex, ?_⟩
  rw [hswap, hdecode]
  exact ⟨rfl, by simp⟩

end SecOutfall.Sensor
