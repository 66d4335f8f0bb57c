import SecOutfall.Foundations.CLayout
import SecOutfall.Foundations.Memory
import SecOutfall.Wire.Records

/-! The sensor ring: the injectee's `emit` (`crates/injectee/src/sensor.rs`) on one side and
`InjectionDrainRings` (`driver/secoutfall/Injection.cpp`) on the other.

The ring is a section that the hosting process maps writable. Each side reads it through its own
declaration of the control block. The drain also returns what it did to the memory, so that
bounds can be stated about it; the ring's content does not change while it is drained. -/
namespace SecOutfall.Sensor
open CLayout
set_option autoImplicit false

/-! ## Machine integers -/

def asI64 (v : UInt64) : ℤ := if v.toNat < 2 ^ 63 then v.toNat else (v.toNat : ℤ) - 2 ^ 64

theorem asI64_of_lt {v : UInt64} (h : v.toNat < 2 ^ 63) : asI64 v = v.toNat := if_pos h

theorem asI64_lt_succ {v : UInt64} (h : v ≠ 0x7FFFFFFFFFFFFFFF) : asI64 v < asI64 (v + 1) := by
  have hne : v.toNat ≠ 2 ^ 63 - 1 := fun h0 => h (UInt64.toNat_inj.mp h0)
  have hlt := v.toNat_lt
  have hsucc : (v + 1).toNat = (v.toNat + 1) % 2 ^ 64 := UInt64.toNat_add v 1
  unfold asI64
  split_ifs <;> omega

/-! ## The producer's view -/

-- `#[repr(C)] struct RingControl`.
namespace RingControl

def fields : List CField := [scalar 4, scalar 4, scalar 4, scalar 8, scalar 8]

def state : ℕ := offsetof fields 0
def slotSize : ℕ := offsetof fields 1
def slotCount : ℕ := offsetof fields 2
def writeIndex : ℕ := offsetof fields 3
def dropped : ℕ := offsetof fields 4

@[simp] theorem state_off : state = 0 := rfl
@[simp] theorem slotSize_off : slotSize = 4 := rfl
@[simp] theorem slotCount_off : slotCount = 8 := rfl
@[simp] theorem writeIndex_off : writeIndex = 16 := rfl
@[simp] theorem dropped_off : dropped = 24 := rfl
@[simp] theorem sizeof_eq : sizeof fields = 32 := rfl

end RingControl

def slotPayloadSize : ℕ := 40
def slotStride : ℕ := 8 + slotPayloadSize

structure Call where
  api : UInt32
  threadId : UInt32
  arg0 : UInt64
  arg1 : UInt64
  arg2 : UInt64
  arg3 : UInt64
  deriving DecidableEq, Repr

/-- Offset of the slot of a claimed index: `claimed.rem_euclid(slot_count)` times the stride. -/
def emitSlot (mem : Memory) (claimed : UInt64) : ℕ :=
  sizeof RingControl.fields +
    (asI64 claimed % ((mem.word32 RingControl.slotCount).toNat : ℤ)).toNat * slotStride

def writeSlot (mem : Memory) (slot : ℕ) (call : Call) : Memory :=
  let payload := slot + 8
  let mem := mem.write32 payload call.api
  let mem := mem.write32 (payload + 4) call.threadId
  let mem := mem.write64 (payload + 8 + 0 * 8) call.arg0
  let mem := mem.write64 (payload + 8 + 1 * 8) call.arg1
  let mem := mem.write64 (payload + 8 + 2 * 8) call.arg2
  mem.write64 (payload + 8 + 3 * 8) call.arg3

/-- `emit` on a mapped ring. `none` is the panic of a remainder by zero. -/
def emit (mem : Memory) (call : Call) : Option Memory :=
  if mem.word32 RingControl.state ≠ 1 then some mem
  else
    let claimed := mem.word64 RingControl.writeIndex
    let mem := mem.write64 RingControl.writeIndex (claimed + 1)
    if mem.word32 RingControl.slotCount = 0 then none
    else
      let slotCount : ℤ := (mem.word32 RingControl.slotCount).toNat
      let slot := emitSlot mem claimed
      let previous := mem.word64 slot
      let mem :=
        if previous ≠ 0 ∧ asI64 (claimed - (previous - 1)) ≥ slotCount then
          mem.write64 RingControl.dropped (mem.word64 RingControl.dropped + 1)
        else mem
      let mem := writeSlot mem slot call
      some (mem.write64 slot (claimed + 1))

def emitAll (mem : Memory) (calls : List Call) : Option Memory := calls.foldlM emit mem

def countOnes (v : UInt32) : ℕ := ((List.range 32).filter fun i => v.toNat.testBit i).length

/-- The geometries `handshake` accepts before it publishes the ring to `emit`. -/
def handshakeAccepts (mem : Memory) : Bool :=
  let slotSize := mem.word32 RingControl.slotSize
  let slotCount := mem.word32 RingControl.slotCount
  !(slotSize.toNat != slotPayloadSize || slotCount == 0 || countOnes slotCount != 1)

/-! ## The consumer's view -/

-- `struct SensorRingControl`.
namespace SensorRingControl

def fields : List CField := [scalar 4, scalar 4, scalar 4, scalar 8, scalar 8]

def state : ℕ := offsetof fields 0
def slotSize : ℕ := offsetof fields 1
def slotCount : ℕ := offsetof fields 2
def writeIndex : ℕ := offsetof fields 3

@[simp] theorem state_off : state = 0 := rfl
@[simp] theorem slotSize_off : slotSize = 4 := rfl
@[simp] theorem slotCount_off : slotCount = 8 := rfl
@[simp] theorem writeIndex_off : writeIndex = 16 := rfl
@[simp] theorem sizeof_eq : sizeof fields = 32 := rfl

end SensorRingControl

def sensorSlotSize : ℕ := 40
def sensorSlotCount : ℕ := 4096

def sensorRingSize : ℕ := sizeof SensorRingControl.fields + sensorSlotCount * (8 + sensorSlotSize)

@[simp] theorem sensorRingSize_eq : sensorRingSize = 196640 := rfl

/-- The ring as `InjectionSensorChallenge` creates it and `InjectionSensorProof` activates it. -/
def activatedRing : Memory :=
  let ring := Memory.zeroed.write32 SensorRingControl.slotSize (.ofNat sensorSlotSize)
  let ring := ring.write32 SensorRingControl.slotCount (.ofNat sensorSlotCount)
  ring.write32 SensorRingControl.state 1

/-- What the drain does with values it took from the ring. -/
inductive RingOp where
  | remainder (divisor : ℕ)
  | access (off len : ℕ)
  deriving DecidableEq, Repr

structure Promotion where
  index : UInt64
  threadId : UInt32
  api : UInt32
  arg0 : UInt64
  arg1 : UInt64
  arg2 : UInt64
  arg3 : UInt64
  deriving DecidableEq, Repr

/-- Outcome of draining one ring; no cursor means that the processor faulted. -/
structure RingDrain where
  ops : List RingOp
  promoted : List Promotion
  cursor : Option UInt64
  dropped : UInt64
  deriving DecidableEq, Repr

/-- `slots + (drained % SlotCount) * (8 + SlotSize)`: the remainder is unsigned, the sum 32-bit. -/
def drainSlot (mem : Memory) (drained : UInt64) : ℕ :=
  sizeof SensorRingControl.fields +
    drained.toNat % (mem.word32 SensorRingControl.slotCount).toNat *
      (8 + mem.word32 SensorRingControl.slotSize).toNat

/-- The six reads of the payload at `slot + 8`, in argument order. -/
def readPromotion (mem : Memory) (drained : UInt64) (slot : ℕ) : Promotion :=
  let payload := slot + 8
  { index := drained
    threadId := mem.word32 payload
    api := mem.word32 (payload + 4)
    arg0 := mem.word64 (payload + 8)
    arg1 := mem.word64 (payload + 16)
    arg2 := mem.word64 (payload + 24)
    arg3 := mem.word64 (payload + 32) }

/-- The `while` over the slots; `left` counts down from 256. -/
def drainSlots (mem : Memory) (writeIndex : UInt64) : ℕ → UInt64 → RingDrain
  | 0, drained => ⟨[], [], some drained, 0⟩
  | left + 1, drained =>
    if asI64 drained < asI64 writeIndex then
      let divisor := (mem.word32 SensorRingControl.slotCount).toNat
      if divisor = 0 then ⟨[.remainder divisor], [], none, 0⟩
      else
        let slot := drainSlot mem drained
        if mem.word64 slot ≠ drained + 1 then
          ⟨[.remainder divisor, .access slot 8], [], some drained, 0⟩
        else
          let rest := drainSlots mem writeIndex left (drained + 1)
          ⟨.remainder divisor :: .access slot 8 :: .access (slot + 8) 40 :: rest.ops,
            readPromotion mem drained slot :: rest.promoted, rest.cursor, rest.dropped⟩
    else ⟨[], [], some drained, 0⟩

theorem drainSlots_of_committed {mem : Memory} {writeIndex drained : UInt64} (left : ℕ)
    (hbehind : asI64 drained < asI64 writeIndex)
    (hcount : mem.word32 SensorRingControl.slotCount ≠ 0)
    (hseq : mem.word64 (drainSlot mem drained) = drained + 1) :
    drainSlots mem writeIndex (left + 1) drained =
      let rest := drainSlots mem writeIndex left (drained + 1)
      ⟨.remainder (mem.word32 SensorRingControl.slotCount).toNat :: .access (drainSlot mem drained) 8 ::
          .access (drainSlot mem drained + 8) 40 :: rest.ops,
        readPromotion mem drained (drainSlot mem drained) :: rest.promoted, rest.cursor, rest.dropped⟩ := by
  have hdivisor : (mem.word32 SensorRingControl.slotCount).toNat ≠ 0 := fun h0 =>
    hcount (UInt32.toNat_inj.mp h0)
  rw [drainSlots, if_pos hbehind]
  simp only [if_neg hdivisor, hseq, ne_eq, not_true_eq_false, if_false]

/-- Overflow resync: the cursor the slots are drained from, and what was lost. -/
def resync (mem : Memory) (cursor : UInt64) : UInt64 × UInt64 :=
  let writeIndex := mem.word64 SensorRingControl.writeIndex
  let slotCount := (mem.word32 SensorRingControl.slotCount).toUInt64
  if asI64 (writeIndex - cursor) > (slotCount.toNat : ℤ) then
    (writeIndex - slotCount, writeIndex - slotCount - cursor)
  else (cursor, 0)

theorem resync_of_le {mem : Memory} {cursor : UInt64}
    (h : asI64 (mem.word64 SensorRingControl.writeIndex - cursor) ≤
      ((mem.word32 SensorRingControl.slotCount).toNat : ℤ)) : (resync mem cursor).1 = cursor := by
  simp only [resync, UInt32.toNat_toUInt64, gt_iff_lt, if_neg (not_lt.mpr h)]

/-- The body of the loop over the snapshot, for one ring. -/
def drainRing (mem : Memory) (cursor : UInt64) : RingDrain :=
  if mem.word32 SensorRingControl.state ≠ 1 then ⟨[], [], some cursor, 0⟩
  else
    let start := resync mem cursor
    let drained := drainSlots mem (mem.word64 SensorRingControl.writeIndex) 256 start.1
    { drained with dropped := start.2 }

theorem drainRing_of_active {mem : Memory} (cursor : UInt64)
    (h : mem.word32 SensorRingControl.state = 1) :
    drainRing mem cursor =
      { drainSlots mem (mem.word64 SensorRingControl.writeIndex) 256 (resync mem cursor).1 with
        dropped := (resync mem cursor).2 } := by
  rw [drainRing, if_neg (not_not.mpr h)]

/-! ## All rings -/

structure RingEntry where
  registered : Bool
  ringKernelVa : Option ℕ
  ringDrainIndex : UInt64
  pid : UInt32
  createTime : UInt64
  deriving DecidableEq, Repr

def ringEntries (ledger : List RingEntry) : List RingEntry :=
  ledger.filter fun entry => entry.registered && entry.ringKernelVa.isSome

/-- The snapshot under the lock holds 64 rings; the others are counted as skipped. -/
def snapshot (ledger : List RingEntry) : List RingEntry := (ringEntries ledger).take 64

def ringsSkipped (ledger : List RingEntry) : ℕ := (ringEntries ledger).length - 64

def drainEntry (rings : ℕ → Memory) (entry : RingEntry) : RingDrain :=
  match entry.ringKernelVa with
  | none => ⟨[], [], some entry.ringDrainIndex, 0⟩
  | some va => drainRing (rings va) entry.ringDrainIndex

def promotions (ledger : List RingEntry) (rings : ℕ → Memory) : List (RingEntry × Promotion) :=
  (snapshot ledger).flatMap fun entry => (drainEntry rings entry).promoted.map fun p => (entry, p)

def promotedRecord (entry : RingEntry) (p : Promotion) (stamp : Wire.Stamp) : List UInt8 :=
  Wire.emitBehaviorCallInternal entry.pid entry.createTime p.threadId p.api p.arg0 p.arg1 p.arg2 p.arg3
    stamp

end SecOutfall.Sensor
