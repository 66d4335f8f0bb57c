import SecOutfall.Delivery.Driver
import SecOutfall.Foundations.Utf16
import SecOutfall.Injection.Engine
import SecOutfall.Notify.Identity
import SecOutfall.Protection.Coverage
import SecOutfall.Wire.Records

/-! The process and thread callbacks (`OnProcessNotify`, `OnThreadNotify`;
`driver/secoutfall/secoutfall.cpp`).

A callback does two things: it emits a record, and it tells the identity table, the injection
engine and the protected table. Memory is what it may not get for either. -/
namespace SecOutfall.Notify
open Delivery Injection Protection Wire
set_option autoImplicit false

/-! ## State -/

structure System where
  nextSequence : UInt64
  driver : Driver
  identities : IdentityTable
  identityMisses : ℕ
  engine : Engine
  protectedNames : List (List UInt16)
  protectedTable : ProtectedTable

def System.init (policy : Policy) (protectedNames : List (List UInt16)) : System :=
  ⟨0, Driver.init, IdentityTable.init, 0, Injection.init policy, protectedNames, ProtectedTable.init⟩

/-- `PS_CREATE_NOTIFY_INFO`, as far as it is read. -/
structure CreateInfo where
  parentProcessId : UInt32
  commandLine : Option UnicodeString
  imageFileName : Option UnicodeString

def imageUnits (imageFileName : Option UnicodeString) : Option (List UInt16) :=
  imageFileName.map fun name => Utf16.unitsOf name.bytes

/-- The allocations of a creation: for its record and for an entry of each table. -/
structure Pool where
  record : Bool
  identity : Bool
  ledger : Bool
  table : Bool
  deriving DecidableEq, Repr

/-! ## Records -/

namespace System

/-- What `AllocRecord` stamps next. -/
def stamp (s : System) (time : UInt64) : Stamp := ⟨s.nextSequence + 1, time⟩

def pushRecord (s : System) (bytes : List UInt8) : System :=
  { s with
    nextSequence := s.nextSequence + 1
    driver := s.driver.emit .items (some ⟨s.nextSequence + 1, bytes⟩) }

/-- `AllocRecord` returned null. -/
def loseRecord (s : System) : System := { s with driver := s.driver.emit .items none }

def nextIdentityMiss (s : System) : System := { s with identityMisses := s.identityMisses + 1 }

def insertIdentity (s : System) (pid : UInt32) (createTime : UInt64) (allocated : Bool) : System :=
  let inserted := s.identities.insert pid createTime allocated
  let s := { s with identities := inserted.1 }
  if inserted.2 then s else s.nextIdentityMiss

end System

/-! ## Callbacks -/

section
variable (upcase : UInt16 → UInt16)

/-- The creation half of `OnProcessNotify`. `time` is the system time `AllocRecord` reads, the
creation time from here on. -/
def onProcessNotifyCreate (s : System) (pid : UInt32) (info : CreateInfo) (time tick : UInt64)
    (pool : Pool) : System :=
  if !pool.record then s.loseRecord
  else
    let record := emitProcessCreated pid info.parentProcessId info.commandLine info.imageFileName
      (s.stamp time)
    let image := imageUnits info.imageFileName
    let s := (s.insertIdentity pid time pool.identity).pushRecord record
    { s with
      engine := onProcessCreate upcase s.engine pid time image tick pool.ledger
      protectedTable :=
        protectionOnProcessCreate upcase s.protectedNames s.protectedTable pid time image pool.table }

end

/-- The exit half: the identity is carried out before it is removed. -/
def onProcessNotifyExit (s : System) (pid : UInt32) (time : UInt64) (allocated : Bool) : System :=
  let createTime := s.identities.lookup pid
  let s := if createTime = 0 then s.nextIdentityMiss else s
  let s := { s with
    identities := s.identities.remove pid
    engine := onProcessExit s.engine pid
    protectedTable := protectionOnProcessExit s.protectedTable pid }
  if !allocated then s.loseRecord else s.pushRecord (emitProcessExited pid createTime (s.stamp time))

/-- `OnThreadNotify`; `thread` is the answer of `PsLookupThreadByThreadId`. -/
def onThreadNotify (s : System) (pid threadId : UInt32) (create : Bool) (thread : Option ℕ)
    (time : UInt64) (allocated : Bool) : System :=
  if !allocated then s.loseRecord
  else
    let s := s.pushRecord (emitThread create pid threadId (s.identities.lookup pid) (s.stamp time))
    if create then
      match thread with
      | some thread => { s with engine := onFirstThread s.engine pid thread }
      | none => s
    else s

/-! ## Runs -/

/-- A notification, or the rest of an attempt that a thread's notification began: it runs without
the ledger lock, so other callbacks may come first. -/
inductive Notification where
  | processCreated (pid : UInt32) (info : CreateInfo) (time tick : UInt64) (pool : Pool)
  | processExited (pid : UInt32) (time : UInt64) (allocated : Bool)
  | thread (pid threadId : UInt32) (create : Bool) (found : Option ℕ) (time : UInt64)
      (allocated : Bool)
  | attempt (k : ℕ) (lookupOk queueOk : Bool)
  | fixup (k : ℕ)

def step (upcase : UInt16 → UInt16) (s : System) : Notification → System
  | .processCreated pid info time tick pool => onProcessNotifyCreate upcase s pid info time tick pool
  | .processExited pid time allocated => onProcessNotifyExit s pid time allocated
  | .thread pid threadId create found time allocated =>
    onThreadNotify s pid threadId create found time allocated
  | .attempt k lookupOk queueOk => { s with engine := runAttempt s.engine k lookupOk queueOk }
  | .fixup k => { s with engine := Injection.fixup s.engine k }

/-- The same notification where `AllocRecord` gets its memory. -/
def Notification.recorded : Notification → Notification
  | .processCreated pid info time tick pool => .processCreated pid info time tick { pool with record := true }
  | .processExited pid time _ => .processExited pid time true
  | .thread pid threadId create found time _ => .thread pid threadId create found time true
  | op => op

end SecOutfall.Notify
