import Mathlib.Tactic.Common
import Mathlib.Data.Int.Notation

/-! The agent's scope logic: `domain/scope.rs`, `domain/marker.rs`, `domain/image_name.rs` and the
matching half of `domain/drop_filter.rs`.

`str::to_lowercase` works on all of Unicode; it is the parameter `lower`. The ASCII comparisons of
the source are `Char.toLower`, which leaves everything but `A`-`Z` alone. Times are unix
milliseconds. -/
namespace SecOutfall.Agent
set_option autoImplicit false

/-! ## Names and paths -/

def eqIgnoreAsciiCase (a b : List Char) : Bool := a.map Char.toLower == b.map Char.toLower

def imageName (path : String) : String :=
  .ofList (path.toList.reverse.takeWhile fun c => c != '/' && c != '\\').reverse

/-- `extension_of`: behind the last dot of the last component, unless that dot comes first. -/
def extensionOf (path : String) : Option String :=
  let component := (imageName path).toList
  if '.' ∈ component then
    let extension := (component.reverse.takeWhile (· != '.')).reverse
    if extension.length + 1 = component.length then none else some (.ofList extension)
  else none

/-- `strip_exe`: four trailing bytes that read `.exe` are four characters. -/
def stripExe (value : List Char) : List Char :=
  let split := value.length - 4
  if 4 ≤ value.length && eqIgnoreAsciiCase (value.drop split) ".exe".toList then value.take split
  else value

def isMarkerProcess (configured observed : String) : Bool :=
  if configured.toList.isEmpty || observed.toList.isEmpty then false
  else eqIgnoreAsciiCase (stripExe observed.toList) (stripExe configured.toList)

example : isMarkerProcess "explorer" "EXPLORER.EXE" = true := by decide

/-! ## Drop filter -/

inductive Rule where
  | all
  | extensionless
  | extension (expected : String)
  deriving DecidableEq, Repr

structure DropFilter where
  rules : List Rule
  deriving DecidableEq, Repr

def DropFilter.covers (lower : String → String) (filter : DropFilter) (path : String) : Bool :=
  let extension := (extensionOf path).map lower
  filter.rules.any fun
    | .all => true
    | .extensionless => extension.all (·.toList.isEmpty)
    | .extension expected => extension == some expected

/-! ## Source payloads -/

structure ProcessStartedData where
  pid : UInt32
  parentPid : Option UInt32
  name : String
  imagePath : Option String
  commandLine : Option String
  deriving DecidableEq, Repr

structure ProcessStoppedData where
  pid : UInt32
  name : String
  deriving DecidableEq, Repr

/-- `FileWrittenData`, and `FileReleasedData` of a close or cleanup, as far as the tracker reads
them. -/
structure FileData where
  pid : UInt32
  fileName : Option String
  deriving DecidableEq, Repr

structure BehaviorCallData where
  pid : UInt32
  api : UInt32
  deriving DecidableEq, Repr

/-! ## Persisted state -/

structure ScopedProcessRecord where
  pid : UInt32
  parentPid : Option UInt32
  name : String
  imagePath : Option String
  commandLine : Option String
  startedAtMs : ℤ
  endedAtMs : Option ℤ
  deriving DecidableEq, Repr

/-- `observedDrops` lists the members of the set in the order they came. -/
structure SessionRecord where
  id : UInt32
  scheduledDurationSecs : Option UInt64
  startedAtMs : ℤ
  endedAtMs : Option ℤ
  abandoned : Bool
  scopedProcesses : List ScopedProcessRecord
  observedDrops : List String
  deriving DecidableEq, Repr

structure ScopeState where
  studyId : BitVec 128
  sessions : List SessionRecord
  deriving DecidableEq, Repr

def ScopeState.currentSession (state : ScopeState) : Option SessionRecord := state.sessions.getLast?

def ScopeState.updateCurrent (state : ScopeState) (f : SessionRecord → SessionRecord) : ScopeState :=
  { state with sessions := state.sessions.modifyLast f }

/-! ## The tracker -/

structure ScopeTracker where
  expected : List String
  closed : List String
  deriving DecidableEq, Repr

namespace ScopeTracker

section
variable (lower : String → String)

def expect (tracker : ScopeTracker) (image : String) : ScopeTracker :=
  let normalized := lower image
  if normalized.toList.isEmpty || tracker.expected.contains normalized then tracker
  else { tracker with expected := tracker.expected ++ [normalized] }

def isScoped (state : ScopeState) (pid : UInt32) : Bool :=
  state.currentSession.any fun session =>
    session.scopedProcesses.any fun p => p.pid == pid && p.endedAtMs.isNone

def processEntered (tracker : ScopeTracker) (state : ScopeState) (data : ProcessStartedData)
    (nowMs : ℤ) : Bool × ScopeState :=
  let name := lower data.name
  let inherited := data.parentPid.any (isScoped state)
  let expected := tracker.expected.contains name
  if !inherited && !expected then (false, state)
  else
    match state.currentSession with
    | none => (false, state)
    | some _ =>
      (true, state.updateCurrent fun session =>
        { session with scopedProcesses :=
            (session.scopedProcesses.filter fun process => process.pid != data.pid) ++
              [⟨data.pid, data.parentPid, name, data.imagePath, data.commandLine, nowMs, none⟩] })

def stampExit (pid : UInt32) (nowMs : ℤ) : List ScopedProcessRecord → List ScopedProcessRecord
  | [] => []
  | process :: rest =>
    if process.pid == pid && process.endedAtMs.isNone then { process with endedAtMs := some nowMs } :: rest
    else process :: stampExit pid nowMs rest

def processExited (state : ScopeState) (data : ProcessStoppedData) (nowMs : ℤ) : Bool × ScopeState :=
  if isScoped state data.pid then
    (true, state.updateCurrent fun session =>
      { session with scopedProcesses := stampExit data.pid nowMs session.scopedProcesses })
  else (false, state)

/-- `scope_dead`: an empty session is not dead. -/
def scopeDead (state : ScopeState) : Bool :=
  state.currentSession.any fun session =>
    !session.scopedProcesses.isEmpty && session.scopedProcesses.all fun p => p.endedAtMs.isSome

def dropObserved (state : ScopeState) (data : FileData) (filter : DropFilter) :
    Option String × ScopeState :=
  if !isScoped state data.pid then (none, state)
  else
    match data.fileName with
    | none => (none, state)
    | some path =>
      if !filter.covers lower path then (none, state)
      else if state.currentSession.any fun session => session.observedDrops.contains path then (none, state)
      else
        (some path, state.updateCurrent fun session =>
          { session with observedDrops := session.observedDrops ++ [path] })

/-- `drop_closed`: the closer must be live-scoped, the path observed, and not closed before. -/
def dropClosed (tracker : ScopeTracker) (state : ScopeState) (data : FileData) :
    Option String × ScopeTracker :=
  match data.fileName with
  | none => (none, tracker)
  | some path =>
    if !isScoped state data.pid then (none, tracker)
    else if !(state.currentSession.any fun session => session.observedDrops.contains path) then (none, tracker)
    else if tracker.closed.contains path then (none, tracker)
    else (some path, { tracker with closed := tracker.closed ++ [path] })

end

end ScopeTracker

end SecOutfall.Agent
