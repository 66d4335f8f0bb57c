import SecOutfall.Control.FileWatch
import SecOutfall.Wire.Common

/-! The injection engine (`driver/secoutfall/Injection.cpp`): ledger, callbacks and attempts.

The ledger mutex is released inside `TryInjectLocked`, so a callback is not one step. A step is a
region that holds the lock, or one that runs without it: the resolution of `LdrLoadDll` in front
of the lock, and the attempt between unlock and relock. Attempts of several callbacks may be in
flight at once, with exits and new processes in between. -/
namespace SecOutfall.Injection
open Control
set_option autoImplicit false

/-! ## Names -/

def defaultBlocklist : List (List UInt16) :=
  [wide "smss.exe", wide "csrss.exe", wide "wininit.exe", wide "winlogon.exe", wide "services.exe",
   wide "lsass.exe", wide "secoutfall-agent.exe", wide "secoutfall-user-actor.exe", wide "dump.exe"]

def ntdllSuffix : List UInt16 := wide "\\ntdll.dll"

/-! ## State -/

inductive InjectionState where
  | pendingThread | pendingNtdll | ready | injected | registered | failed
  deriving DecidableEq, Repr

/-- A null thread, section or view is `none`, a null base is 0. -/
structure InjectionEntry where
  pid : UInt32
  createTime : UInt64
  nonce : UInt64
  initialThread : Option ℕ
  ntdllBase : UInt64
  state : InjectionState
  ringSection : Option ℕ
  ringKernelVa : Option ℕ
  ringDrainIndex : UInt64
  sensorVersion : UInt32
  deriving DecidableEq, Repr

structure Policy where
  injectionEnabled : Bool
  sensorDllPath : Option (List UInt16)
  extraBlocklist : FileWatch

inductive AttemptResult where
  | lookupFailed | queueFailed | queued
  deriving DecidableEq, Repr

/-- A callback between unlock and relock of `TryInjectLocked`: the locals it snapshotted, and the
create time and incarnation of the entry it snapshotted them from (history, not locals). -/
structure Attempt where
  pid : UInt32
  createTime : UInt64
  incarnation : ℕ
  thread : ℕ
  ntdllBase : UInt64
  dllPath : List UInt16
  result : Option AttemptResult
  deriving DecidableEq, Repr

/-- A load APC as `QueueLoadLibraryApc` builds it. -/
structure LoadApc where
  pid : UInt32
  incarnation : ℕ
  thread : ℕ
  ntdllBase : UInt64
  ldrLoadDllRva : UInt32
  dllPath : List UInt16
  deriving DecidableEq, Repr

def LoadApc.ldrLoadDll (apc : LoadApc) : UInt64 := apc.ntdllBase + apc.ldrLoadDllRva.toUInt64

structure ImageLoad where
  pid : UInt32
  incarnation : ℕ
  base : UInt64
  name : List UInt16
  deriving DecidableEq, Repr

structure Engine where
  ledger : List InjectionEntry
  policy : Policy
  ldrLoadDllRva : Option UInt32
  attempts : List Attempt
  nonceCounter : UInt64
  injectionsQueued : ℕ
  injectionsFailed : ℕ
  allocFailures : ℕ
  -- history: exits of a pid so far number its incarnations
  exits : UInt32 → ℕ
  loads : List ImageLoad
  apcs : List LoadApc

def init (policy : Policy) : Engine := ⟨[], policy, none, [], 0, 0, 0, 0, fun _ => 0, [], []⟩

/-! ## The ledger -/

def findEntry (ledger : List InjectionEntry) (pid : UInt32) : Option InjectionEntry :=
  ledger.find? fun entry => entry.pid == pid

/-- Assignments through the pointer `FindLedgerEntryLocked` returned. -/
def updateEntry (pid : UInt32) (f : InjectionEntry → InjectionEntry) :
    List InjectionEntry → List InjectionEntry
  | [] => []
  | entry :: rest => if entry.pid == pid then f entry :: rest else entry :: updateEntry pid f rest

def unlinkEntry (ledger : List InjectionEntry) (pid : UInt32) : List InjectionEntry :=
  ledger.eraseP fun entry => entry.pid == pid

/-! ## Callbacks -/

section
variable (upcase : UInt16 → UInt16)

def injectionWantsProcess (s : Engine) (pid : UInt32) (imageFileName : Option (List UInt16)) : Bool :=
  if !s.policy.injectionEnabled || pid ≤ 4 then false
  else
    match imageFileName with
    | none => true
    | some name =>
      !(FileWatch.covers upcase ⟨true, defaultBlocklist⟩ name) &&
        !(s.policy.extraBlocklist.covers upcase name)

def mintNonce (tick : UInt64) (pid : UInt32) (counter : UInt64) : UInt64 :=
  (tick * (0x9E3779B97F4A7C15 : UInt64)) ^^^ (pid.toUInt64 <<< 32) ^^^ counter

def onProcessCreate (s : Engine) (pid : UInt32) (createTime : UInt64)
    (imageFileName : Option (List UInt16)) (tick : UInt64) (allocated : Bool) : Engine :=
  if !injectionWantsProcess upcase s pid imageFileName then s
  else
    let s := { s with nonceCounter := s.nonceCounter + 1 }
    if !allocated then { s with allocFailures := s.allocFailures + 1 }
    else
      match findEntry s.ledger pid with
      | some _ => s
      | none =>
        let nonce := mintNonce tick pid s.nonceCounter
        { s with ledger := s.ledger ++
          [⟨pid, createTime, nonce, none, 0, .pendingThread, none, none, 0, 0⟩] }

/-- The path is copied into a buffer of `MaxFilePathBytes`, whole WCHARs and room for the NUL. -/
def snapshotPath (path : List UInt16) : List UInt16 := path.take (Wire.maxFilePathBytes / 2 - 1)

def tryInjectLocked (s : Engine) (pid : UInt32) : Engine :=
  match findEntry s.ledger pid with
  | none => s
  | some entry =>
    match entry.initialThread, s.policy.sensorDllPath with
    | some thread, some path =>
      if entry.ntdllBase == 0 || s.ldrLoadDllRva.isNone || !s.policy.injectionEnabled then s
      else if entry.state ≠ .ready then s
      else
        { s with
          ledger := updateEntry pid (fun entry => { entry with state := .injected }) s.ledger
          attempts := s.attempts ++
            [⟨pid, entry.createTime, s.exits pid, thread, entry.ntdllBase, snapshotPath path, none⟩] }
    | _, _ => s

def casState (expected target : InjectionState) (entry : InjectionEntry) : InjectionEntry :=
  if entry.state = expected then { entry with state := target } else entry

def seeThread (thread : ℕ) (entry : InjectionEntry) : InjectionEntry :=
  if entry.initialThread.isNone then
    casState .pendingThread (if entry.ntdllBase ≠ 0 then .ready else .pendingNtdll)
      { entry with initialThread := some thread }
  else entry

def onFirstThread (s : Engine) (pid : UInt32) (thread : ℕ) : Engine :=
  match findEntry s.ledger pid with
  | none => s
  | some _ => tryInjectLocked { s with ledger := updateEntry pid (seeThread thread) s.ledger } pid

/-- The part of `InjectionOnImageLoad` in front of the lock; `resolved` is the answer of
`ResolveLdrLoadDllRva`. -/
def resolveLdrLoadDll (s : Engine) (fullImageName : List UInt16) (resolved : Option UInt32) : Engine :=
  if s.ldrLoadDllRva.isNone && suffixMatches upcase fullImageName ntdllSuffix then
    { s with ldrLoadDllRva := resolved }
  else s

def seeImage (base : UInt64) (entry : InjectionEntry) : InjectionEntry :=
  if entry.ntdllBase = 0 then
    casState (if entry.initialThread.isSome then .pendingNtdll else .pendingThread) .ready
      { entry with ntdllBase := base }
  else entry

/-- `InjectionOnImageLoad` under the lock: the name is not looked at again. -/
def onImageLoad (s : Engine) (pid : UInt32) (base : UInt64) (fullImageName : List UInt16) : Engine :=
  let s := { s with loads := s.loads ++ [⟨pid, s.exits pid, base, fullImageName⟩] }
  match findEntry s.ledger pid with
  | none => s
  | some _ => tryInjectLocked { s with ledger := updateEntry pid (seeImage base) s.ledger } pid

def onProcessExit (s : Engine) (pid : UInt32) : Engine :=
  { s with
    ledger := unlinkEntry s.ledger pid
    exits := fun p => if p = pid then s.exits p + 1 else s.exits p }

/-! ## Attempts -/

/-- Between unlock and relock: the process lookup and `TryInjectSnapshot`, whose allocations and
APC insertion may fail. -/
def runAttempt (s : Engine) (k : ℕ) (lookupOk queueOk : Bool) : Engine :=
  match s.attempts[k]? with
  | none => s
  | some attempt =>
    if attempt.result.isSome then s
    else if !lookupOk then
      { s with attempts := s.attempts.set k { attempt with result := some .lookupFailed } }
    else
      match s.ldrLoadDllRva with
      | none => { s with attempts := s.attempts.set k { attempt with result := some .queueFailed } }
      | some rva =>
        if !queueOk then
          { s with attempts := s.attempts.set k { attempt with result := some .queueFailed } }
        else
          { s with
            attempts := s.attempts.set k { attempt with result := some .queued }
            apcs := s.apcs ++ [⟨attempt.pid, attempt.incarnation, attempt.thread, attempt.ntdllBase,
              rva, attempt.dllPath⟩] }

/-- After the relock: the fixup on whatever entry the pid has now. -/
def fixup (s : Engine) (k : ℕ) : Engine :=
  match s.attempts[k]? with
  | none => s
  | some attempt =>
    match attempt.result with
    | none => s
    | some result =>
      let s := { s with attempts := s.attempts.eraseIdx k }
      match findEntry s.ledger attempt.pid with
      | none => s
      | some _ =>
        match result with
        | .queued => { s with injectionsQueued := s.injectionsQueued + 1 }
        | .lookupFailed =>
          { s with ledger := updateEntry attempt.pid (fun e => { e with state := .ready }) s.ledger }
        | .queueFailed =>
          { s with
            ledger := updateEntry attempt.pid (fun e => { e with state := .failed }) s.ledger
            injectionsFailed := s.injectionsFailed + 1 }

/-! ## Steps -/

inductive Op where
  | setPolicy (policy : Policy)
  | processCreate (pid : UInt32) (createTime : UInt64) (imageFileName : Option (List UInt16))
      (tick : UInt64) (allocated : Bool)
  | firstThread (pid : UInt32) (thread : ℕ)
  | resolve (fullImageName : List UInt16) (resolved : Option UInt32)
  | imageLoad (pid : UInt32) (base : UInt64) (fullImageName : List UInt16)
  | attempt (k : ℕ) (lookupOk queueOk : Bool)
  | fixup (k : ℕ)
  | processExit (pid : UInt32)

def step (s : Engine) : Op → Engine
  | .setPolicy policy => { s with policy }
  | .processCreate pid createTime name tick allocated =>
    onProcessCreate upcase s pid createTime name tick allocated
  | .firstThread pid thread => onFirstThread s pid thread
  | .resolve name resolved => resolveLdrLoadDll upcase s name resolved
  | .imageLoad pid base name => onImageLoad s pid base name
  | .attempt k lookupOk queueOk => runAttempt s k lookupOk queueOk
  | .fixup k => fixup s k
  | .processExit pid => onProcessExit s pid

end

end SecOutfall.Injection
