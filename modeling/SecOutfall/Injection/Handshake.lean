import SecOutfall.Foundations.Runs
import SecOutfall.Injection.Engine
import SecOutfall.Sensor.Ring

/-! The sensor handshake (`InjectionSensorChallenge`, `InjectionSensorRegister`) and the teardown of
ledger entries, on top of the engine.

A challenge is three passes, of which the second runs without the ledger lock, and an epilogue
behind the last unlock. An exit unlinks its entry under the lock and destroys it outside. A step
of `Sensors` is one such region; any number of challenges, attempts and exits may be in flight. -/
namespace SecOutfall.Injection
open Runs Sensor
set_option autoImplicit false

/-! ## State -/

/-- What a challenge creates for a ring. The number names the object: a handle value or an address
that the kernel hands out again later is a different object. -/
inductive Resource where
  | ringSection (ring : ℕ)
  | ringView (ring : ℕ)
  deriving DecidableEq, Repr

inductive ChallengePhase where
  | passTwo | passThree
  | epilogue (ok adoptExisting : Bool)
  deriving DecidableEq, Repr

/-- View and section of a ring, in the order in which they are released. -/
def ringResources (va sectionHandle : Option ℕ) : List Resource :=
  va.toList.map Resource.ringView ++ sectionHandle.toList.map Resource.ringSection

/-- The locals of `InjectionSensorChallenge`; `fromSection` is its `section`. -/
structure Challenge where
  pid : UInt32
  nonce : UInt64
  createTime : UInt64
  hasRing : Bool
  existingSection : Option ℕ
  created : Bool
  fromSection : Option ℕ
  freshVa : Option ℕ
  phase : ChallengePhase
  deriving DecidableEq, Repr

structure SensorChallenge where
  nonce : UInt64
  ringHandle : Option ℕ
  ringSize : ℕ
  slotSize : ℕ
  slotCount : ℕ
  deriving DecidableEq, Repr

def SensorChallenge.zero : SensorChallenge := ⟨0, none, 0, 0, 0⟩

/-- A challenge that returned. -/
structure Reply where
  pid : UInt32
  ok : Bool
  challenge : SensorChallenge
  deriving DecidableEq, Repr

structure Registration where
  pid : UInt32
  incarnation : ℕ
  nonce : UInt64
  deriving DecidableEq, Repr

structure Sensors where
  engine : Engine
  challenges : List Challenge
  -- unlinked by `InjectionOnProcessExit`, not yet destroyed
  victims : List InjectionEntry
  sensorsRegistered : ℕ
  sensorsRejected : ℕ
  nextRing : ℕ
  -- history
  created : List Resource
  released : List Resource
  replies : List Reply
  registrations : List Registration

def Sensors.init (policy : Policy) : Sensors :=
  ⟨Injection.init policy, [], [], 0, 0, 0, [], [], [], []⟩

namespace Sensors

def setLedger (s : Sensors) (ledger : List InjectionEntry) : Sensors :=
  { s with engine := { s.engine with ledger } }

def countAllocFailure (s : Sensors) : Sensors :=
  { s with engine := { s.engine with allocFailures := s.engine.allocFailures + 1 } }

/-! ## Challenge -/

def returnFalse (s : Sensors) (pid : UInt32) : Sensors :=
  { s with replies := s.replies ++ [⟨pid, false, .zero⟩] }

def reject (s : Sensors) (pid : UInt32) : Sensors :=
  returnFalse { s with sensorsRejected := s.sensorsRejected + 1 } pid

/-- Pass 1, under the lock. -/
def passOne (s : Sensors) (pid : UInt32) : Sensors :=
  match findEntry s.engine.ledger pid with
  | none => s.reject pid
  | some entry =>
    if entry.state ≠ .injected then s.reject pid
    else
      { s with challenges := s.challenges ++
        [⟨pid, entry.nonce, entry.createTime, entry.ringKernelVa.isSome, entry.ringSection, false,
          none, none, .passTwo⟩] }

/-- `if (created) { MmUnmapViewInSystemSpace(freshVa); ZwClose(section); }`. -/
def releaseFresh (s : Sensors) (c : Challenge) : Sensors :=
  if c.created then { s with released := s.released ++ ringResources c.freshVa c.fromSection } else s

def abandon (s : Sensors) (k : ℕ) (c : Challenge) : Sensors :=
  reject (releaseFresh { s with challenges := s.challenges.eraseIdx k } c) c.pid

/-- The second half of pass 2: open the caller and duplicate the section into it. -/
def duplicate (s : Sensors) (k : ℕ) (c : Challenge) (openOk dupOk : Bool) : Sensors :=
  if !openOk then s.abandon k c
  else if !dupOk then s.abandon k c
  else { s with challenges := s.challenges.set k { c with phase := .passThree } }

def createSection (s : Sensors) : Sensors :=
  { s with nextRing := s.nextRing + 1, created := s.created ++ [.ringSection s.nextRing] }

/-- Pass 2, without the lock; the arguments are the outcomes of its system calls. -/
def passTwo (s : Sensors) (k : ℕ) (createOk mapOk openOk dupOk : Bool) : Sensors :=
  match s.challenges[k]? with
  | none => s
  | some c =>
    if c.phase ≠ .passTwo then s
    else if c.hasRing then s.duplicate k { c with fromSection := c.existingSection } openOk dupOk
    else if !createOk then
      returnFalse (countAllocFailure { s with challenges := s.challenges.eraseIdx k }) c.pid
    else if !mapOk then
      returnFalse (countAllocFailure { s.createSection with
        challenges := s.challenges.eraseIdx k
        released := s.released ++ [.ringSection s.nextRing] }) c.pid
    else
      duplicate { s.createSection with created := s.createSection.created ++ [.ringView s.nextRing] } k
        { c with created := true, fromSection := some s.nextRing, freshVa := some s.nextRing }
        openOk dupOk

/-- Pass 3, under the lock. A challenge that finds another ring in the entry keeps its `created`. -/
def passThree (s : Sensors) (k : ℕ) : Sensors :=
  match s.challenges[k]? with
  | none => s
  | some c =>
    if c.phase ≠ .passThree then s
    else
      let put (c : Challenge) := { s with challenges := s.challenges.set k c }
      match findEntry s.engine.ledger c.pid with
      | none => put { c with phase := .epilogue false false }
      | some entry =>
        if entry.state = .injected ∧ entry.createTime = c.createTime ∧ entry.nonce = c.nonce then
          if c.hasRing || entry.ringKernelVa.isSome then
            if !c.hasRing then
              put { c with phase := .epilogue true true, existingSection := entry.ringSection }
            else put { c with phase := .epilogue true false }
          else
            setLedger (put { c with phase := .epilogue true false, created := false })
              (updateEntry c.pid (fun e => { e with
                ringSection := c.fromSection, ringKernelVa := c.freshVa, ringDrainIndex := 0 })
                s.engine.ledger)
        else put { c with phase := .epilogue false false }

def answer (s : Sensors) (k : ℕ) (c : Challenge) (ringHandle : Option ℕ) : Sensors :=
  { s with
    challenges := s.challenges.eraseIdx k
    replies := s.replies ++ [⟨c.pid, true,
      ⟨c.nonce, ringHandle, sensorRingSize, sensorSlotSize, sensorSlotCount⟩⟩] }

/-- Behind the lock of pass 3; adopting the winner's section takes one more open and duplicate. -/
def epilogue (s : Sensors) (k : ℕ) (openOk dupOk : Bool) : Sensors :=
  match s.challenges[k]? with
  | none => s
  | some c =>
    match c.phase with
    | .epilogue false _ => s.abandon k c
    | .epilogue true true =>
      let gone := { s with challenges := s.challenges.eraseIdx k }
      if !openOk then gone.reject c.pid
      else if !dupOk then gone.reject c.pid
      else s.answer k c c.existingSection
    | .epilogue true false => s.answer k c c.fromSection
    | _ => s

/-! ## Register and teardown -/

def register (s : Sensors) (pid : UInt32) (nonce : UInt64) (sensorVersion : UInt32) : Sensors :=
  match findEntry s.engine.ledger pid with
  | none => { s with sensorsRejected := s.sensorsRejected + 1 }
  | some entry =>
    if entry.state ≠ .injected ∨ entry.nonce ≠ nonce then
      { s with sensorsRejected := s.sensorsRejected + 1 }
    else
      setLedger { s with
          sensorsRegistered := s.sensorsRegistered + 1
          registrations := s.registrations ++ [⟨pid, s.engine.exits pid, nonce⟩] }
        (updateEntry pid (fun e => { e with state := .registered, sensorVersion }) s.engine.ledger)

def destroyLedgerEntry (s : Sensors) (j : ℕ) : Sensors :=
  match s.victims[j]? with
  | none => s
  | some entry =>
    { s with
      victims := s.victims.eraseIdx j
      released := s.released ++ ringResources entry.ringKernelVa entry.ringSection }

/-- The loop of the cursor write-back: the first entry with this ring. -/
def writeCursor (va : ℕ) (drained : UInt64) : List InjectionEntry → List InjectionEntry
  | [] => []
  | entry :: rest =>
    if entry.ringKernelVa == some va then { entry with ringDrainIndex := drained } :: rest
    else entry :: writeCursor va drained rest

def writeBack (s : Sensors) (va : ℕ) (drained : UInt64) : Sensors :=
  s.setLedger (writeCursor va drained s.engine.ledger)

end Sensors

/-! ## Steps -/

inductive Region where
  | engine (op : Op)
  | destroy (j : ℕ)
  | passOne (pid : UInt32)
  | passTwo (k : ℕ) (createOk mapOk openOk dupOk : Bool)
  | passThree (k : ℕ)
  | epilogue (k : ℕ) (openOk dupOk : Bool)
  | register (pid : UInt32) (nonce : UInt64) (sensorVersion : UInt32)
  | writeBack (va : ℕ) (drained : UInt64)

/-- The entry an exit takes out of the ledger is the caller's to destroy. -/
def unlinked (ledger : List InjectionEntry) : Op → List InjectionEntry
  | .processExit pid => (findEntry ledger pid).toList
  | _ => []

def Sensors.step (upcase : UInt16 → UInt16) (s : Sensors) : Region → Sensors
  | .engine op =>
    { s with
      engine := Injection.step upcase s.engine op
      victims := s.victims ++ unlinked s.engine.ledger op }
  | .destroy j => s.destroyLedgerEntry j
  | .passOne pid => s.passOne pid
  | .passTwo k createOk mapOk openOk dupOk => s.passTwo k createOk mapOk openOk dupOk
  | .passThree k => s.passThree k
  | .epilogue k openOk dupOk => s.epilogue k openOk dupOk
  | .register pid nonce sensorVersion => s.register pid nonce sensorVersion
  | .writeBack va drained => s.writeBack va drained

end SecOutfall.Injection
