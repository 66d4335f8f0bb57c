import Mathlib.Logic.Function.Basic
import SecOutfall.Foundations.Runs
import SecOutfall.Sensor.Ring

/-! Producers and drains of the sensor rings, word by word.

`emit` claims an index, then accounts for the record it overwrites, writes the six payload words
and commits; `InjectionDrainRings` takes its snapshot and writes cursors back under the ledger
lock and does everything else without it, down to the counters it reads and then exchanges. Every
such piece is a step of its own, and any number of producers and drains may be in between. -/
namespace SecOutfall.Sensor
open CLayout
set_option autoImplicit false

/-! ## State -/

inductive EmitPhase where
  | load
  | account (previous : UInt64)
  | payload (word : ℕ)
  | commit
  deriving DecidableEq, Repr

/-- A thread inside `emit`, behind its claim. -/
structure Producer where
  va : ℕ
  call : Call
  claimed : UInt64
  slot : ℕ
  phase : EmitPhase
  deriving DecidableEq, Repr

structure RingRef where
  va : ℕ
  cursor : UInt64
  pid : UInt32
  createTime : UInt64
  deriving DecidableEq, Repr

inductive DrainPhase where
  | ring
  | slots (writeIndex drained : UInt64) (drainedNow : ℕ)
  | payload (writeIndex drained : UInt64) (drainedNow slot word : ℕ) (p : Promotion)
  | writeBack (drained : UInt64)
  | readDrained
  | exchangeDrained (total : UInt64)
  | readDropped
  | exchangeDropped (total : UInt64)
  -- remainder by a slot count of zero
  | faulted
  deriving DecidableEq, Repr

/-- A call of `InjectionDrainRings`; the first of `rings` is the one it is at. -/
structure Drain where
  rings : List RingRef
  phase : DrainPhase
  drainedTotal : UInt64
  droppedTotal : UInt64
  deriving DecidableEq, Repr

/-- What a drain did with indices of a ring. -/
inductive Consumed where
  | promoted (ref : RingRef) (p : Promotion)
  | dropped (va : ℕ) (start stop : UInt64)
  deriving DecidableEq, Repr

structure Rings where
  memory : ℕ → Memory
  ledger : List RingEntry
  producers : List Producer
  drains : List Drain
  sensorEventsDrained : UInt64
  sensorEventsDropped : UInt64
  sensorRingsSkipped : UInt64
  -- history
  consumed : List Consumed
  committed : List (ℕ × UInt64)

/-- Registered processes with fresh rings; two views are never mapped at one address. -/
structure Setup where
  ledger : List RingEntry
  distinct : (ledger.filterMap RingEntry.ringKernelVa).Nodup
  fresh : ∀ entry ∈ ledger, entry.ringDrainIndex = 0

def Rings.init (setup : Setup) : Rings :=
  ⟨fun _ => activatedRing, setup.ledger, [], [], 0, 0, 0, [], []⟩

namespace Rings

def setMemory (s : Rings) (va : ℕ) (mem : Memory) : Rings :=
  { s with memory := Function.update s.memory va mem }

/-! ## Producers -/

/-- `emit` up to its claim. A slot count of zero panics the thread. -/
def claim (s : Rings) (va : ℕ) (call : Call) : Rings :=
  let mem := s.memory va
  if mem.word32 RingControl.state ≠ 1 then s
  else
    let claimed := mem.word64 RingControl.writeIndex
    let mem := mem.write64 RingControl.writeIndex (claimed + 1)
    let s := s.setMemory va mem
    if mem.word32 RingControl.slotCount = 0 then s
    else { s with producers := s.producers ++ [⟨va, call, claimed, emitSlot mem claimed, .load⟩] }

def writeWord (mem : Memory) (slot : ℕ) (call : Call) : ℕ → Memory
  | 0 => mem.write32 (slot + 8) call.api
  | 1 => mem.write32 (slot + 8 + 4) call.threadId
  | 2 => mem.write64 (slot + 8 + 8 + 0 * 8) call.arg0
  | 3 => mem.write64 (slot + 8 + 8 + 1 * 8) call.arg1
  | 4 => mem.write64 (slot + 8 + 8 + 2 * 8) call.arg2
  | _ => mem.write64 (slot + 8 + 8 + 3 * 8) call.arg3

def produce (s : Rings) (j : ℕ) : Rings :=
  match s.producers[j]? with
  | none => s
  | some producer =>
    let mem := s.memory producer.va
    let next (phase : EmitPhase) := s.producers.set j { producer with phase }
    match producer.phase with
    | .load => { s with producers := next (.account (mem.word64 producer.slot)) }
    | .account previous =>
      let slotCount : ℤ := (mem.word32 RingControl.slotCount).toNat
      let mem :=
        if previous ≠ 0 ∧ asI64 (producer.claimed - (previous - 1)) ≥ slotCount then
          mem.write64 RingControl.dropped (mem.word64 RingControl.dropped + 1)
        else mem
      { s.setMemory producer.va mem with producers := next (.payload 0) }
    | .payload word =>
      { s.setMemory producer.va (writeWord mem producer.slot producer.call word) with
        producers := next (if word < 5 then .payload (word + 1) else .commit) }
    | .commit =>
      { s.setMemory producer.va (mem.write64 producer.slot (producer.claimed + 1)) with
        producers := s.producers.eraseIdx j
        committed := s.committed ++ [(producer.va, producer.claimed)] }

/-! ## Drains -/

def ringRefs (ledger : List RingEntry) : List RingRef :=
  (Sensor.snapshot ledger).filterMap fun entry =>
    entry.ringKernelVa.map fun va => ⟨va, entry.ringDrainIndex, entry.pid, entry.createTime⟩

/-- The snapshot, under the lock. -/
def drain (s : Rings) : Rings :=
  { s with
    drains := s.drains ++ [⟨ringRefs s.ledger, .ring, 0, 0⟩]
    sensorRingsSkipped := s.sensorRingsSkipped + .ofNat (ringsSkipped s.ledger) }

def readWord (mem : Memory) (slot : ℕ) (p : Promotion) : ℕ → Promotion
  | 0 => { p with threadId := mem.word32 (slot + 8) }
  | 1 => { p with api := mem.word32 (slot + 8 + 4) }
  | 2 => { p with arg0 := mem.word64 (slot + 8 + 8) }
  | 3 => { p with arg1 := mem.word64 (slot + 8 + 16) }
  | 4 => { p with arg2 := mem.word64 (slot + 8 + 24) }
  | _ => { p with arg3 := mem.word64 (slot + 8 + 32) }

/-- The loop of the write-back: the first entry with this ring. -/
def writeCursor (va : ℕ) (drained : UInt64) : List RingEntry → List RingEntry
  | [] => []
  | entry :: rest =>
    if entry.ringKernelVa == some va then { entry with ringDrainIndex := drained } :: rest
    else entry :: writeCursor va drained rest

/-- `control->State`, `WriteIndex` and the overflow resync of the ring the drain is at. -/
def beginRing (s : Rings) (k : ℕ) (d : Drain) (ref : RingRef) (rest : List RingRef) : Rings :=
  let mem := s.memory ref.va
  if mem.word32 SensorRingControl.state ≠ 1 then
    { s with drains := s.drains.set k { d with rings := rest } }
  else
    let start := resync mem ref.cursor
    { s with
      drains := s.drains.set k { d with
        phase := .slots (mem.word64 SensorRingControl.writeIndex) start.1 0
        droppedTotal := d.droppedTotal + start.2 }
      consumed := s.consumed ++
        (if start.2 = 0 then [] else [.dropped ref.va ref.cursor start.1]) }

def enter (s : Rings) (k : ℕ) (d : Drain) (phase : DrainPhase) : Rings :=
  { s with drains := s.drains.set k { d with phase } }

/-- The head of the slot loop, up to the commit check. -/
def checkSlot (s : Rings) (k : ℕ) (d : Drain) (ref : RingRef) (writeIndex drained : UInt64)
    (drainedNow : ℕ) : Rings :=
  let mem := s.memory ref.va
  if drainedNow < 256 ∧ asI64 drained < asI64 writeIndex then
    if mem.word32 SensorRingControl.slotCount = 0 then s.enter k d .faulted
    else
      let slot := drainSlot mem drained
      if mem.word64 slot ≠ drained + 1 then s.enter k d (.writeBack drained)
      else s.enter k d (.payload writeIndex drained drainedNow slot 0 ⟨drained, 0, 0, 0, 0, 0, 0⟩)
  else s.enter k d (.writeBack drained)

/-- One payload read; behind the last one the call is promoted. -/
def readPayload (s : Rings) (k : ℕ) (d : Drain) (ref : RingRef) (writeIndex drained : UInt64)
    (drainedNow slot word : ℕ) (p : Promotion) : Rings :=
  let p := readWord (s.memory ref.va) slot p word
  if word < 5 then
    { s with drains := s.drains.set k { d with
      phase := .payload writeIndex drained drainedNow slot (word + 1) p } }
  else
    { s with
      drains := s.drains.set k { d with
        phase := .slots writeIndex (drained + 1) (drainedNow + 1)
        drainedTotal := d.drainedTotal + 1 }
      consumed := s.consumed ++ [.promoted ref p] }

def atRing (s : Rings) (k : ℕ) (d : Drain) (ref : RingRef) (rest : List RingRef) : Rings :=
  match d.phase with
  | .ring => s.beginRing k d ref rest
  | .slots writeIndex drained drainedNow => s.checkSlot k d ref writeIndex drained drainedNow
  | .payload writeIndex drained drainedNow slot word p =>
    s.readPayload k d ref writeIndex drained drainedNow slot word p
  | .writeBack drained =>
    { s with
      ledger := writeCursor ref.va drained s.ledger
      drains := s.drains.set k { d with rings := rest, phase := .ring } }
  | _ => s

/-- Behind the last ring: the counters. -/
def atEnd (s : Rings) (k : ℕ) (d : Drain) : Rings :=
  match d.phase with
  | .ring => s.enter k d .readDrained
  | .readDrained =>
    if d.drainedTotal > 0 then s.enter k d (.exchangeDrained (s.sensorEventsDrained + d.drainedTotal))
    else s.enter k d .readDropped
  | .exchangeDrained total => { s.enter k d .readDropped with sensorEventsDrained := total }
  | .readDropped =>
    if d.droppedTotal > 0 then s.enter k d (.exchangeDropped (s.sensorEventsDropped + d.droppedTotal))
    else { s with drains := s.drains.eraseIdx k }
  | .exchangeDropped total => { s with drains := s.drains.eraseIdx k, sensorEventsDropped := total }
  | _ => s

def advanceAt (s : Rings) (k : ℕ) (d : Drain) : Rings :=
  match d.rings with
  | [] => s.atEnd k d
  | ref :: rest => s.atRing k d ref rest

def advance (s : Rings) (k : ℕ) : Rings :=
  match s.drains[k]? with
  | none => s
  | some d => s.advanceAt k d

theorem advance_of_get {s : Rings} {k : ℕ} {d : Drain} (h : s.drains[k]? = some d) :
    s.advance k = s.advanceAt k d := by
  rw [advance, h]

theorem advance_of_none {s : Rings} {k : ℕ} (h : s.drains[k]? = none) : s.advance k = s := by
  rw [advance, h]

end Rings

/-! ## Steps -/

inductive RingStep where
  | emit (va : ℕ) (call : Call)
  | produce (j : ℕ)
  | drain
  | advance (k : ℕ)
  deriving DecidableEq, Repr

def Rings.step (s : Rings) : RingStep → Rings
  | .emit va call => s.claim va call
  | .produce j => s.produce j
  | .drain => s.drain
  | .advance k => s.advance k

end SecOutfall.Sensor
