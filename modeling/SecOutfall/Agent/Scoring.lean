import SecOutfall.Agent.TrackerRuns
import SecOutfall.Foundations.AssocList

/-! The session score: `domain/score.rs` and the bus consumer of the scoring plugin. -/
namespace SecOutfall.Agent
open AssocList
set_option autoImplicit false

/-! ## Signals -/

inductive ScoreSignal where
  | cliInterpreter (image : String)
  | dropObserved
  deriving DecidableEq, Repr

structure ScoreWeights where
  cliStarted : UInt32
  dropObserved : UInt32
  runKeySet : UInt32
  chainInjection : UInt32
  chainRansomware : UInt32
  deriving DecidableEq, Repr

def isCliInterpreter (image : String) : Bool :=
  let lowered := image.toList.map Char.toLower
  let bare := if ".exe".toList.isSuffixOf lowered then lowered.take (lowered.length - 4) else lowered
  ["cmd", "powershell", "pwsh", "wscript", "cscript", "mshta", "rundll32", "regsvr32"].any (·.toList == bare)

example : isCliInterpreter "PowerShell.EXE" = true := by decide

def scoreSignal (weights : ScoreWeights) : ScoreSignal → Option UInt32
  | .cliInterpreter image => if isCliInterpreter image then some weights.cliStarted else none
  | .dropObserved => some weights.dropObserved

/-! ## Chains -/

namespace BehaviorApi

def ntCreateThreadEx : UInt32 := 4
def ntSetValueKeyRunKey : UInt32 := 7
def ntWriteVmCrossProcess : UInt32 := 9
def ntDeleteFileShadowCopy : UInt32 := 10
def cryptEncrypt : UInt32 := 12

end BehaviorApi

inductive ChainId where
  | injection
  | ransomware
  deriving DecidableEq, Repr

/-- Apis with the sightings they need. -/
def ChainId.members : ChainId → List (UInt32 × UInt32)
  | .injection => [(BehaviorApi.ntWriteVmCrossProcess, 1), (BehaviorApi.ntCreateThreadEx, 1)]
  | .ransomware => [(BehaviorApi.cryptEncrypt, 8), (BehaviorApi.ntDeleteFileShadowCopy, 1)]

def ChainId.weight (weights : ScoreWeights) : ChainId → UInt32
  | .injection => weights.chainInjection
  | .ransomware => weights.chainRansomware

structure BehaviorFinding where
  chains : List ChainId
  runKeySet : Bool
  deriving DecidableEq, Repr

structure PidBehavior where
  counts : List (UInt32 × UInt32)
  fired : List ChainId
  runKeySeen : Bool
  deriving DecidableEq, Repr

def PidBehavior.empty : PidBehavior := ⟨[], [], false⟩

structure ChainDetector where
  perPid : List (UInt32 × PidBehavior)
  droppedPids : ℕ
  deriving DecidableEq, Repr

def maxTrackedPids : ℕ := 4096

def bump (counts : List (UInt32 × UInt32)) (api : UInt32) : List (UInt32 × UInt32) :=
  upsert api (fun
    | some count => count + 1
    | none => 1) counts

def countOf (counts : List (UInt32 × UInt32)) (api : UInt32) : UInt32 := (counts.lookup api).getD 0

/-- One chain of the loop in `observe`. -/
def PidBehavior.tryFire (slot : PidBehavior) (chains : List ChainId) (chain : ChainId) :
    PidBehavior × List ChainId :=
  if slot.fired.contains chain then (slot, chains)
  else if chain.members.all fun member => member.2 ≤ countOf slot.counts member.1 then
    ({ slot with fired := slot.fired ++ [chain] }, chains ++ [chain])
  else (slot, chains)

def PidBehavior.observe (slot : PidBehavior) (api : UInt32) : BehaviorFinding × PidBehavior :=
  let runKeySet := api == BehaviorApi.ntSetValueKeyRunKey && !slot.runKeySeen
  let slot := { slot with
    runKeySeen := slot.runKeySeen || runKeySet
    counts := bump slot.counts api }
  let (slot, chains) := slot.tryFire [] .injection
  let (slot, chains) := slot.tryFire chains .ransomware
  (⟨chains, runKeySet⟩, slot)

namespace ChainDetector

def slotFor (detector : ChainDetector) (pid : UInt32) : Option PidBehavior × ChainDetector :=
  match detector.perPid.lookup pid with
  | some slot => (some slot, detector)
  | none =>
    if maxTrackedPids ≤ detector.perPid.length then
      (none, { detector with droppedPids := detector.droppedPids + 1 })
    else (some .empty, { detector with perPid := detector.perPid ++ [(pid, .empty)] })

def observe (detector : ChainDetector) (pid api : UInt32) : BehaviorFinding × ChainDetector :=
  match detector.slotFor pid with
  | (none, detector) => (⟨[], false⟩, detector)
  | (some slot, detector) =>
    let (finding, slot) := slot.observe api
    -- the slot is borrowed from its entry
    (finding, { detector with perPid := upsert pid (fun _ => slot) detector.perPid })

def forget (detector : ChainDetector) (pid : UInt32) : ChainDetector :=
  { detector with perPid := erase pid detector.perPid }

end ChainDetector

/-! ## The consumer -/

/-- `raised` is what the plugin published. -/
structure Scoring where
  detector : ChainDetector
  maxScore : UInt32
  raised : List UInt32
  deriving DecidableEq, Repr

def Scoring.initial : Scoring := ⟨⟨[], 0⟩, 0, []⟩

section
variable (weights : ScoreWeights)

def scoringCandidate (detector : ChainDetector) : AgentBusEvent → Option UInt32 × ChainDetector
  | .processEnteredScope _ name => (scoreSignal weights (.cliInterpreter name), detector)
  | .dropObserved _ _ => (scoreSignal weights .dropObserved, detector)
  | .behaviorObserved pid api =>
    let (finding, detector) := detector.observe pid api
    (if finding.runKeySet then some weights.runKeySet else (finding.chains.map (·.weight weights)).max?,
      detector)
  | .processExitedScope pid _ => (none, detector.forget pid)
  | _ => (none, detector)

def Scoring.recv (scoring : Scoring) (event : AgentBusEvent) : Scoring :=
  let (candidate, detector) := scoringCandidate weights scoring.detector event
  match candidate with
  | none => { scoring with detector }
  | some candidate =>
    { detector
      maxScore := max scoring.maxScore candidate
      raised := if scoring.maxScore < candidate then scoring.raised ++ [candidate] else scoring.raised }

end

end SecOutfall.Agent
