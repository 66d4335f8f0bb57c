import Mathlib.Data.Int.Notation
import Mathlib.Logic.Function.Basic
import SecOutfall.Control.FileWatch

/-! Drop capture on one stream: the write and cleanup callbacks of `driver/secoutfall/secoutfall.cpp`.

A callback is several steps, because the state word of the stream context is shared: the writer
installs the context, links, exchanges the state and emits; a cleanup reads the context, exchanges
the state, copies and emits. Any number of callbacks may be in flight. -/
namespace SecOutfall.Drops
open Control
set_option autoImplicit false

/-! ## State -/

/-- `DropStreamContext::State`. -/
inductive DropState where
  | copyPending | linked | copyDone | copyFailed
  deriving DecidableEq, Repr

inductive DropMethod where
  | hardlink | copy
  deriving DecidableEq, Repr

/-- Where a callback stands: four steps of a write, four of a cleanup. A cleanup remembers whether a
write had returned when it began (history). -/
inductive Callback where
  | contextAllocated
  | linking
  | linkMade
  | emittingLink
  | cleaning (afterWrite : Bool)
  | claiming (afterWrite : Bool)
  | copying (afterWrite : Bool)
  | emittingCopy (afterWrite : Bool)
  deriving DecidableEq, Repr

/-- The loss counters, as far as they are incremented on behalf of the stream's capture. -/
structure Losses where
  noiseWritesSkipped : ℕ
  fileNameQueriesFailed : ℕ
  dropsMissedBusy : ℕ
  allocFailures : ℕ
  dropsCopyFailed : ℕ
  dropsStopped : ℕ
  deriving DecidableEq, Repr

def Losses.total (l : Losses) : ℕ :=
  l.noiseWritesSkipped + l.fileNameQueriesFailed + l.dropsMissedBusy + l.allocFailures +
    l.dropsCopyFailed + l.dropsStopped

/-- One stream. `recordAllocFailures` is the part of `AllocFailures` that is no loss of the capture:
file records and the link buffer. -/
structure Stream where
  path : List UInt16
  watch : FileWatch
  dropWatch : FileWatch
  context : Option DropState
  callbacks : ℕ → Option Callback
  losses : Losses
  dropsLinkFailed : ℕ
  recordAllocFailures : ℕ
  emitted : List DropMethod
  -- history: a write of at least one byte has returned; a cleanup that began after that has
  writeReturned : Bool
  cleanedUp : Bool

def Stream.fresh (path : List UInt16) (watch dropWatch : FileWatch) : Stream :=
  ⟨path, watch, dropWatch, none, fun _ => none, ⟨0, 0, 0, 0, 0, 0⟩, 0, 0, [], false, false⟩

namespace Stream

def goto (s : Stream) (t : ℕ) (callback : Callback) : Stream :=
  { s with callbacks := Function.update s.callbacks t (some callback) }

def returnWrite (s : Stream) (t : ℕ) : Stream :=
  { s with callbacks := Function.update s.callbacks t none, writeReturned := true }

def returnCleanup (s : Stream) (t : ℕ) (afterWrite : Bool) : Stream :=
  { s with
    callbacks := Function.update s.callbacks t none
    cleanedUp := s.cleanedUp || afterWrite }

def lose (s : Stream) (f : Losses → Losses) : Stream := { s with losses := f s.losses }

/-- `EmitDropCaptured`; the drops queue refuses when it is full. -/
def emitDropCaptured (s : Stream) (method : DropMethod) (allocated accepted : Bool) : Stream :=
  if !allocated then s.lose fun l => { l with allocFailures := l.allocFailures + 1 }
  else if !accepted then s.lose fun l => { l with dropsStopped := l.dropsStopped + 1 }
  else { s with emitted := s.emitted ++ [method] }

/-! ## Write callbacks -/

/-- What a write callback finds outside the stream: the write, the name query, memory for the file
record and for the context, the IRQL. -/
structure WriteEnv where
  length : UInt32
  offset : ℤ
  queryOk : Bool
  recordAllocated : Bool
  passive : Bool
  contextAllocated : Bool
  deriving DecidableEq, Repr

def isNoise (env : WriteEnv) : Bool :=
  (env.length == 4096 || env.length == 8192 || env.length == 16384) && 0 < env.offset

def countRecord (s : Stream) (upcase : UInt16 → UInt16) (allocated : Bool) : Stream :=
  if s.watch.covers upcase s.path && !allocated then
    { s with recordAllocFailures := s.recordAllocFailures + 1 }
  else s

/-- `TryCaptureDrop` up to the allocated context. -/
def tryCaptureDrop (upcase : UInt16 → UInt16) (s : Stream) (t : ℕ) (env : WriteEnv) : Stream :=
  if !s.dropWatch.covers upcase s.path then s.returnWrite t
  else if !env.passive then
    (s.lose fun l => { l with dropsMissedBusy := l.dropsMissedBusy + 1 }).returnWrite t
  else if !env.contextAllocated then
    (s.lose fun l => { l with allocFailures := l.allocFailures + 1 }).returnWrite t
  else s.goto t .contextAllocated

/-- `SecOutfallPostWrite`. -/
def postWrite (upcase : UInt16 → UInt16) (s : Stream) (t : ℕ) (env : WriteEnv) : Stream :=
  if s.callbacks t ≠ none then s
  else if !s.watch.enabled then s
  else if env.length = 0 then s
  else if isNoise env then
    (s.lose fun l => { l with noiseWritesSkipped := l.noiseWritesSkipped + 1 }).returnWrite t
  else if !env.queryOk then
    (s.lose fun l => { l with fileNameQueriesFailed := l.fileNameQueriesFailed + 1 }).returnWrite t
  else (s.countRecord upcase env.recordAllocated).tryCaptureDrop upcase t env

/-- `FltSetStreamContext` with `KEEP_IF_EXISTS`. -/
def setContext (s : Stream) (t : ℕ) (ok : Bool) : Stream :=
  if s.callbacks t = some .contextAllocated then
    if !ok then (s.lose fun l => { l with allocFailures := l.allocFailures + 1 }).returnWrite t
    else if s.context.isSome then s.returnWrite t
    else { s.goto t .linking with context := some .copyPending }
  else s

inductive LinkResult where
  | linked | failed | noMemory
  deriving DecidableEq, Repr

/-- `CreateHardLinkInDrops`; the state stays pending when it fails. -/
def createHardLink (s : Stream) (t : ℕ) (result : LinkResult) : Stream :=
  if s.callbacks t = some .linking then
    match result with
    | .linked => s.goto t .linkMade
    | .failed => { s.returnWrite t with dropsLinkFailed := s.dropsLinkFailed + 1 }
    | .noMemory =>
      { s.returnWrite t with
        dropsLinkFailed := s.dropsLinkFailed + 1
        recordAllocFailures := s.recordAllocFailures + 1 }
  else s

/-- `InterlockedExchange(&context->State, DROP_LINKED)`, whatever it held. -/
def exchangeLinked (s : Stream) (t : ℕ) : Stream :=
  if s.callbacks t = some .linkMade then { s.goto t .emittingLink with context := some .linked }
  else s

/-! ## Cleanup callbacks -/

/-- `SecOutfallPostCleanup` up to `TryCleanupCopy`. -/
def postCleanup (upcase : UInt16 → UInt16) (s : Stream) (t : ℕ) (queryOk recordAllocated : Bool) :
    Stream :=
  if s.callbacks t ≠ none then s
  else if !s.watch.enabled then s
  else if !queryOk then
    (s.lose fun l => { l with fileNameQueriesFailed := l.fileNameQueriesFailed + 1 }).returnCleanup t
      s.writeReturned
  else (s.countRecord upcase recordAllocated).goto t (.cleaning s.writeReturned)

/-- `FltGetStreamContext`. -/
def getContext (s : Stream) (t : ℕ) : Stream :=
  match s.callbacks t with
  | some (.cleaning afterWrite) =>
    if s.context.isNone then s.returnCleanup t afterWrite else s.goto t (.claiming afterWrite)
  | _ => s

/-- `InterlockedExchange(&context->State, DROP_COPY_DONE)` and the tests on the old state. -/
def claimCopy (s : Stream) (t : ℕ) (passive : Bool) : Stream :=
  match s.callbacks t with
  | some (.claiming afterWrite) =>
    let state := s.context
    let s := { s with context := some .copyDone }
    if state ≠ some .copyPending then s.returnCleanup t afterWrite
    else if !passive then
      (s.lose fun l => { l with dropsMissedBusy := l.dropsMissedBusy + 1 }).returnCleanup t afterWrite
    else s.goto t (.copying afterWrite)
  | _ => s

/-- `CopyFileToDrops`. -/
def copyFile (s : Stream) (t : ℕ) (ok : Bool) : Stream :=
  match s.callbacks t with
  | some (.copying afterWrite) =>
    if ok then s.goto t (.emittingCopy afterWrite)
    else
      (s.lose fun l => { l with dropsCopyFailed := l.dropsCopyFailed + 1 }).returnCleanup t afterWrite
  | _ => s

/-- The last step of both callbacks. -/
def emit (s : Stream) (t : ℕ) (allocated accepted : Bool) : Stream :=
  match s.callbacks t with
  | some .emittingLink => (s.emitDropCaptured .hardlink allocated accepted).returnWrite t
  | some (.emittingCopy afterWrite) =>
    (s.emitDropCaptured .copy allocated accepted).returnCleanup t afterWrite
  | _ => s

/-- `MarkStreamCopied`, when the stream is the destination of the driver's own copy. -/
def markStreamCopied (s : Stream) (allocated : Bool) : Stream :=
  if allocated && s.context.isNone then { s with context := some .copyDone } else s

/-! ## Steps -/

inductive Op where
  | setFileWatch (watch : FileWatch)
  | setDropPolicy (dropWatch : FileWatch)
  | postWrite (t : ℕ) (env : WriteEnv)
  | setContext (t : ℕ) (ok : Bool)
  | createHardLink (t : ℕ) (result : LinkResult)
  | exchangeLinked (t : ℕ)
  | emit (t : ℕ) (allocated accepted : Bool)
  | postCleanup (t : ℕ) (queryOk recordAllocated : Bool)
  | getContext (t : ℕ)
  | claimCopy (t : ℕ) (passive : Bool)
  | copyFile (t : ℕ) (ok : Bool)
  | markStreamCopied (allocated : Bool)

def step (upcase : UInt16 → UInt16) (s : Stream) : Op → Stream
  | .setFileWatch watch => { s with watch }
  | .setDropPolicy dropWatch => { s with dropWatch }
  | .postWrite t env => s.postWrite upcase t env
  | .setContext t ok => s.setContext t ok
  | .createHardLink t result => s.createHardLink t result
  | .exchangeLinked t => s.exchangeLinked t
  | .emit t allocated accepted => s.emit t allocated accepted
  | .postCleanup t queryOk recordAllocated => s.postCleanup upcase t queryOk recordAllocated
  | .getContext t => s.getContext t
  | .claimCopy t passive => s.claimCopy t passive
  | .copyFile t ok => s.copyFile t ok
  | .markStreamCopied allocated => s.markStreamCopied allocated

/-! ## What a step can do -/

section
variable (upcase : UInt16 → UInt16) (s : Stream) (t : ℕ)

theorem countRecord_eq (allocated : Bool) :
    ∃ recordAllocFailures, s.countRecord upcase allocated = { s with recordAllocFailures } := by
  unfold countRecord
  split <;> exact ⟨_, rfl⟩

theorem tryCaptureDrop_cases (env : WriteEnv) :
    s.tryCaptureDrop upcase t env = s.goto t .contextAllocated ∨
      ∃ losses, (s.dropWatch.covers upcase s.path = true → s.losses.total < losses.total) ∧
        s.tryCaptureDrop upcase t env = { s with losses }.returnWrite t := by
  unfold tryCaptureDrop
  split_ifs with hcovers
  · refine .inr ⟨s.losses, fun hyes => ?_, rfl⟩
    simp [hyes] at hcovers
  · refine .inr ⟨_, fun _ => ?_, rfl⟩
    simp only [Losses.total]
    omega
  · refine .inr ⟨_, fun _ => ?_, rfl⟩
    simp only [Losses.total]
    omega
  · exact .inl rfl

theorem postWrite_cases (env : WriteEnv) :
    s.postWrite upcase t env = s ∨
      s.callbacks t = none ∧ ∃ recordAllocFailures,
        s.postWrite upcase t env = { s with recordAllocFailures }.goto t .contextAllocated ∨
        ∃ losses, (s.dropWatch.covers upcase s.path = true → s.losses.total < losses.total) ∧
          s.postWrite upcase t env = { s with recordAllocFailures, losses }.returnWrite t := by
  obtain ⟨recordAllocFailures, hrecord⟩ := s.countRecord_eq upcase env.recordAllocated
  unfold postWrite
  rw [hrecord]
  split_ifs with hbusy
  · exact .inl rfl
  · exact .inl rfl
  · exact .inl rfl
  · refine .inr ⟨not_not.mp hbusy, s.recordAllocFailures, .inr ⟨_, fun _ => ?_, rfl⟩⟩
    simp only [Losses.total]
    omega
  · refine .inr ⟨not_not.mp hbusy, s.recordAllocFailures, .inr ⟨_, fun _ => ?_, rfl⟩⟩
    simp only [Losses.total]
    omega
  · exact .inr ⟨not_not.mp hbusy, recordAllocFailures, tryCaptureDrop_cases upcase _ t env⟩

theorem setContext_cases (ok : Bool) :
    s.setContext t ok = s ∨
      s.callbacks t = some .contextAllocated ∧
        ((∃ losses, s.losses.total < losses.total ∧
            s.setContext t ok = { s with losses }.returnWrite t) ∨
          s.context ≠ none ∧ s.setContext t ok = s.returnWrite t ∨
          s.context = none ∧
            s.setContext t ok = { s.goto t .linking with context := some .copyPending }) := by
  unfold setContext
  split_ifs with hat _ hsome
  · refine .inr ⟨hat, .inl ⟨_, ?_, rfl⟩⟩
    simp only [Losses.total]
    omega
  · exact .inr ⟨hat, .inr (.inl ⟨Option.isSome_iff_ne_none.mp hsome, rfl⟩)⟩
  · exact .inr ⟨hat, .inr (.inr ⟨by simpa using hsome, rfl⟩)⟩
  · exact .inl rfl

theorem createHardLink_cases (result : LinkResult) :
    s.createHardLink t result = s ∨
      s.callbacks t = some .linking ∧
        (s.createHardLink t result = s.goto t .linkMade ∨
          ∃ dropsLinkFailed recordAllocFailures, s.createHardLink t result =
            { s.returnWrite t with dropsLinkFailed, recordAllocFailures }) := by
  unfold createHardLink
  split_ifs with hat
  · cases result with
    | linked => exact .inr ⟨hat, .inl rfl⟩
    | failed => exact .inr ⟨hat, .inr ⟨_, _, rfl⟩⟩
    | noMemory => exact .inr ⟨hat, .inr ⟨_, _, rfl⟩⟩
  · exact .inl rfl

theorem postCleanup_cases (queryOk recordAllocated : Bool) :
    s.postCleanup upcase t queryOk recordAllocated = s ∨
      s.callbacks t = none ∧
        ((∃ losses, s.losses.total < losses.total ∧ s.postCleanup upcase t queryOk recordAllocated =
            { s with losses }.returnCleanup t s.writeReturned) ∨
          ∃ recordAllocFailures, s.postCleanup upcase t queryOk recordAllocated =
            { s with recordAllocFailures }.goto t (.cleaning s.writeReturned)) := by
  obtain ⟨recordAllocFailures, hrecord⟩ := s.countRecord_eq upcase recordAllocated
  unfold postCleanup
  rw [hrecord]
  split_ifs with hbusy
  · exact .inl rfl
  · exact .inl rfl
  · refine .inr ⟨not_not.mp hbusy, .inl ⟨_, ?_, rfl⟩⟩
    simp only [Losses.total]
    omega
  · exact .inr ⟨not_not.mp hbusy, .inr ⟨recordAllocFailures, rfl⟩⟩

theorem getContext_cases :
    s.getContext t = s ∨
      ∃ afterWrite, s.callbacks t = some (.cleaning afterWrite) ∧
        (s.context = none ∧ s.getContext t = s.returnCleanup t afterWrite ∨
          s.context ≠ none ∧ s.getContext t = s.goto t (.claiming afterWrite)) := by
  unfold getContext
  split
  · rename_i afterWrite hat
    split
    · rename_i hnone
      exact .inr ⟨afterWrite, hat, .inl ⟨Option.isNone_iff_eq_none.mp hnone, rfl⟩⟩
    · rename_i hsome
      exact .inr ⟨afterWrite, hat, .inr ⟨by simpa using hsome, rfl⟩⟩
  · exact .inl rfl

theorem claimCopy_cases (passive : Bool) :
    s.claimCopy t passive = s ∨
      ∃ afterWrite, s.callbacks t = some (.claiming afterWrite) ∧
        (s.context ≠ some .copyPending ∧
            s.claimCopy t passive = { s with context := some .copyDone }.returnCleanup t afterWrite ∨
          s.context = some .copyPending ∧
            ((∃ losses, s.losses.total < losses.total ∧ s.claimCopy t passive =
                { s with context := some .copyDone, losses }.returnCleanup t afterWrite) ∨
              s.claimCopy t passive =
                { s with context := some .copyDone }.goto t (.copying afterWrite))) := by
  unfold claimCopy
  split
  · rename_i afterWrite hat
    simp only
    split_ifs with hstate
    · exact .inr ⟨afterWrite, hat, .inl ⟨hstate, rfl⟩⟩
    · refine .inr ⟨afterWrite, hat, .inr ⟨not_not.mp hstate, .inl ⟨_, ?_, rfl⟩⟩⟩
      simp only [Losses.total]
      omega
    · exact .inr ⟨afterWrite, hat, .inr ⟨not_not.mp hstate, .inr rfl⟩⟩
  · exact .inl rfl

theorem copyFile_cases (ok : Bool) :
    s.copyFile t ok = s ∨
      ∃ afterWrite, s.callbacks t = some (.copying afterWrite) ∧
        (s.copyFile t ok = s.goto t (.emittingCopy afterWrite) ∨
          ∃ losses, s.losses.total < losses.total ∧
            s.copyFile t ok = { s with losses }.returnCleanup t afterWrite) := by
  unfold copyFile
  split
  · rename_i afterWrite hat
    split
    · exact .inr ⟨afterWrite, hat, .inl rfl⟩
    · refine .inr ⟨afterWrite, hat, .inr ⟨_, ?_, rfl⟩⟩
      simp only [Losses.total]
      omega
  · exact .inl rfl

/-- The record is lost and counted, or pushed. -/
theorem emitDropCaptured_cases (method : DropMethod) (allocated accepted : Bool) :
    (∃ losses, s.losses.total < losses.total ∧
        s.emitDropCaptured method allocated accepted = { s with losses }) ∨
      s.emitDropCaptured method allocated accepted = { s with emitted := s.emitted ++ [method] } := by
  unfold emitDropCaptured
  split_ifs
  · refine .inl ⟨_, ?_, rfl⟩
    simp only [Losses.total]
    omega
  · refine .inl ⟨_, ?_, rfl⟩
    simp only [Losses.total]
    omega
  · exact .inr rfl

theorem emit_cases (allocated accepted : Bool) :
    s.emit t allocated accepted = s ∨
      s.callbacks t = some .emittingLink ∧ s.emit t allocated accepted =
        (s.emitDropCaptured .hardlink allocated accepted).returnWrite t ∨
      ∃ afterWrite, s.callbacks t = some (.emittingCopy afterWrite) ∧ s.emit t allocated accepted =
        (s.emitDropCaptured .copy allocated accepted).returnCleanup t afterWrite := by
  unfold emit
  split
  · rename_i hat
    exact .inr (.inl ⟨hat, rfl⟩)
  · rename_i afterWrite hat
    exact .inr (.inr ⟨afterWrite, hat, rfl⟩)
  · exact .inl rfl

theorem markStreamCopied_cases (allocated : Bool) :
    s.markStreamCopied allocated = s ∨
      s.context = none ∧ s.markStreamCopied allocated = { s with context := some .copyDone } := by
  unfold markStreamCopied
  split
  · rename_i h
    exact .inr ⟨by simpa using (Bool.and_eq_true_iff.mp h).2, rfl⟩
  · exact .inl rfl

end

end Stream

end SecOutfall.Drops
