import Mathlib.Logic.Function.Basic
import SecOutfall.Delivery.Queue
import SecOutfall.Foundations.Runs

/-! The record path of the driver: allocation, the three rate-class queues and
`IOCTL_SECOUTFALL_GET_DATA`.

`History` is a history variable: every function appends to it what it does to a record and
nothing reads it back. -/
namespace SecOutfall.Delivery
open Runs Wire
set_option autoImplicit false

/-! ## State -/

inductive QueueClass where
  | items | files | drops
  deriving DecidableEq, Repr

def capacity : QueueClass → ℕ
  | .items => 256
  | .files => 4096
  | .drops => 512

theorem capacity_pos (c : QueueClass) : 0 < capacity c := by cases c <;> decide

structure Counters where
  queueOverwritten : ℕ
  filesOverwritten : ℕ
  dropsStopped : ℕ
  oversizedSkipped : ℕ
  allocFailures : ℕ
  deriving DecidableEq, Repr

structure Offer where
  cls : QueueClass
  item : Item
  linked : Bool
  deriving DecidableEq, Repr

inductive Fate where
  | delivered | evicted | skipped
  deriving DecidableEq, Repr

structure Departure where
  cls : QueueClass
  item : Item
  fate : Fate
  deriving DecidableEq, Repr

structure Batch where
  bufferSize : ℕ
  records : List (QueueClass × Item)
  bytes : List UInt8
  deriving DecidableEq, Repr

structure History where
  offers : List Offer
  departures : List Departure
  batches : List Batch
  allocated : List Item
  freed : List Item
  deriving DecidableEq, Repr

structure Driver where
  queue : (c : QueueClass) → Queue (capacity c)
  counters : Counters
  history : History

def Driver.init : Driver where
  queue c := Queue.empty (capacity_pos c)
  counters := ⟨0, 0, 0, 0, 0⟩
  history := ⟨[], [], [], [], []⟩

namespace Driver

def setQueue (s : Driver) (c : QueueClass) (q : Queue (capacity c)) : Driver :=
  { s with queue := Function.update s.queue c q }

@[simp] theorem setQueue_self (s : Driver) (c : QueueClass) (q : Queue (capacity c)) :
    (s.setQueue c q).queue c = q := by
  simp [setQueue]

theorem setQueue_of_ne (s : Driver) {c c' : QueueClass} (q : Queue (capacity c)) (h : c' ≠ c) :
    (s.setQueue c q).queue c' = s.queue c' := by
  simp [setQueue, h]

def queued (s : Driver) : ℕ :=
  (s.queue .items).items.length + (s.queue .files).items.length + (s.queue .drops).items.length

def exFreePool (s : Driver) (item : Item) : Driver :=
  { s with history := { s.history with freed := s.history.freed ++ [item] } }

def noteOffer (s : Driver) (c : QueueClass) (item : Item) (linked : Bool) : Driver :=
  { s with history := { s.history with offers := s.history.offers ++ [⟨c, item, linked⟩] } }

def noteDeparture (s : Driver) (c : QueueClass) (item : Item) (fate : Fate) : Driver :=
  { s with history := { s.history with departures := s.history.departures ++ [⟨c, item, fate⟩] } }

def noteBatch (s : Driver) (batch : Batch) : Driver :=
  { s with history := { s.history with batches := s.history.batches ++ [batch] } }

/-! ## Emission -/

structure WireRecord where
  sequence : UInt64
  bytes : List UInt8
  deriving DecidableEq, Repr

def newItem (s : Driver) (record : WireRecord) : Item :=
  ⟨s.history.allocated.length, record.sequence, record.bytes⟩

def noteAllocated (s : Driver) (item : Item) : Driver :=
  { s with history := { s.history with allocated := s.history.allocated ++ [item] } }

/-- `InterlockedIncrement64(_overflowCounter)`; the drops queue has none. -/
def countOverflow (s : Driver) (c : QueueClass) : Driver :=
  match c with
  | .items => { s with counters.queueOverwritten := s.counters.queueOverwritten + 1 }
  | .files => { s with counters.filesOverwritten := s.counters.filesOverwritten + 1 }
  | .drops => s

/-- `PushRecord`: drop-oldest. -/
def pushRecord (s : Driver) (c : QueueClass) (item : Item) : Driver :=
  let pushed := (s.queue c).push item
  let s := (s.setQueue c pushed.1).noteOffer c item true
  match pushed.2 with
  | none => s
  | some old => ((s.noteDeparture c old .evicted).exFreePool old).countOverflow c

/-- `PushDropRecord`: stop-collect. A refusal is counted and nothing else. -/
def pushDropRecord (s : Driver) (item : Item) : Driver :=
  match (s.queue .drops).tryPush item with
  | some q => (s.setQueue .drops q).noteOffer .drops item true
  | none =>
    { s.noteOffer .drops item false with counters.dropsStopped := s.counters.dropsStopped + 1 }

/-- An emitting routine: `AllocRecord`, then the push of its class. `none` is a pool that had no
memory. -/
def emit (s : Driver) (c : QueueClass) (record : Option WireRecord) : Driver :=
  match record with
  | none => { s with counters.allocFailures := s.counters.allocFailures + 1 }
  | some record =>
    let item := s.newItem record
    let s := s.noteAllocated item
    match c with
    | .drops => s.pushDropRecord item
    | .items | .files => s.pushRecord c item

end Driver

/-! ## The merged drain -/

/-- Locals of the `GET_DATA` loop: `count`, and what lies in the buffer so far. -/
structure Drain where
  driver : Driver
  count : ℕ
  out : List UInt8
  records : List (QueueClass × Item)

/-- Result of the `tryPop` lambda: 1, -1 and 0. -/
inductive TryPop where
  | progressed (d : Drain)
  | empty
  | needsBigger

def Drain.deliver (d : Drain) (c : QueueClass) (item : Item) (q : Queue (capacity c)) : Drain where
  driver := ((d.driver.setQueue c q).noteDeparture c item .delivered).exFreePool item
  count := d.count + item.size
  out := d.out ++ item.bytes
  records := d.records ++ [(c, item)]

def Drain.skip (d : Drain) (c : QueueClass) (item : Item) (q : Queue (capacity c)) : Drain :=
  let s := ((d.driver.setQueue c q).noteDeparture c item .skipped).exFreePool item
  { d with driver := { s with counters.oversizedSkipped := s.counters.oversizedSkipped + 1 } }

def tryPop (size : ℕ) (d : Drain) (c : QueueClass) : TryPop :=
  let queue := d.driver.queue c
  match queue.popIfFits (size - d.count) with
  | some (item, q) => .progressed (d.deliver c item q)
  | none =>
    let headSize := queue.headSize
    if headSize = 0 then .empty
    else if headSize > size then
      match queue.pop with
      | some (item, q) => .progressed (d.skip c item q)
      | none => .empty
    else .needsBigger

def queues : List QueueClass := [.items, .files, .drops]

def scanHead (s : Driver) (best : Option QueueClass × UInt64) (c : QueueClass) :
    Option QueueClass × UInt64 :=
  let seq := (s.queue c).headSeq
  if seq < best.2 then (some c, seq) else best

def oldest (s : Driver) : Option QueueClass :=
  (queues.foldl (scanHead s) (none, Queue.maxULongLong)).1

def popped (size : ℕ) (d : Drain) (c : QueueClass) : Option Drain :=
  match tryPop size d c with
  | .progressed d' => some d'
  | .empty => none
  | .needsBigger => none

/-- One iteration of `while (true)`; `none` is a break. -/
def drainBody (size : ℕ) (d : Drain) : Option Drain :=
  match oldest d.driver with
  | none => none
  | some c =>
    match popped size d c with
    | some d' => some d'
    | none => (queues.filter (· ≠ c)).findSome? (popped size d)

/-- The loop. Every iteration removes a linked record, so their number is fuel enough. -/
def drainLoop (size : ℕ) (d : Drain) : Drain := runLoop (drainBody size) d.driver.queued d

/-! ## The control request -/

inductive NtStatus where
  | success | invalidParameter | insufficientResources
  deriving DecidableEq, Repr

/-- An `IOCTL_SECOUTFALL_GET_DATA` request with what its environment answers: whether the IRP has
an MDL and whether it could be mapped, and the records that `InjectionDrainRings` promotes. -/
structure GetData where
  size : ℕ
  mdl : Bool
  mapped : Bool
  promoted : List (Option Driver.WireRecord)
  deriving DecidableEq, Repr

def GetData.accepted (request : GetData) : Bool :=
  !(request.size == 0 || !request.mdl || request.size < maxRecordBytes)

def Driver.promote (s : Driver) (records : List (Option WireRecord)) : Driver :=
  records.foldl (fun s record => s.emit .files record) s

def getData (s : Driver) (request : GetData) : NtStatus × Driver :=
  if !request.accepted then (.invalidParameter, s)
  else if !request.mapped then (.insufficientResources, s)
  else
    let d := drainLoop request.size ⟨s.promote request.promoted, 0, [], []⟩
    (.success, d.driver.noteBatch ⟨request.size, d.records, d.out⟩)

/-! ## Runs -/

inductive Op where
  | emit (c : QueueClass) (record : Option Driver.WireRecord)
  | getData (request : GetData)
  deriving DecidableEq, Repr

def step (s : Driver) : Op → Driver
  | .emit c record => s.emit c record
  | .getData request => (getData s request).2

end SecOutfall.Delivery
