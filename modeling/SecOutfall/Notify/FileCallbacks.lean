import SecOutfall.Drops.Capture
import SecOutfall.Foundations.Runs
import SecOutfall.Foundations.Utf16
import SecOutfall.Wire.Records

/-! The minifilter callbacks (`driver/secoutfall/secoutfall.cpp`): which completed operations become a
record or arm a stream, and who frees a rename's context.

The file system says in its completion status whether the operation happened, and for a disposition the
parameters say whether it asked for a deletion. -/
namespace SecOutfall.Notify
open Control Drops Runs Wire
set_option autoImplicit false

/-! ## Operations -/

/-- `NT_SUCCESS`. -/
def ntSuccess (status : UInt32) : Bool := status < 0x80000000

def fileSuperseded : UInt64 := 0

def fileCreated : UInt64 := 2

inductive FileInformationClass where
  | rename | renameEx | disposition | dispositionEx
  | other (code : UInt32)
  deriving DecidableEq, Repr

/-- `Parameters.SetFileInformation`, with the disposition's first word. -/
structure SetFileInformation where
  cls : FileInformationClass
  disposition : UInt32
  deriving DecidableEq, Repr

namespace SetFileInformation

def isRename (parameters : SetFileInformation) : Bool :=
  parameters.cls == .rename || parameters.cls == .renameEx

def isDelete (parameters : SetFileInformation) : Bool :=
  parameters.cls == .disposition || parameters.cls == .dispositionEx

/-- `DeleteFile`, a `BOOLEAN`, or `FILE_DISPOSITION_DELETE` in `Flags`; no callback reads them. -/
def asksDeletion (parameters : SetFileInformation) : Bool :=
  match parameters.cls with
  | .disposition => parameters.disposition &&& 0xFF != 0
  | .dispositionEx => parameters.disposition &&& 1 != 0
  | _ => false

end SetFileInformation

/-- What a post-operation callback finds: the caller and its identity, the completion, the name and
whether the query has it, memory for the record. -/
structure CallbackData where
  pid : UInt32
  identity : UInt64
  status : UInt32
  name : UnicodeString
  queryOk : Bool
  recordAllocated : Bool

def CallbackData.path (data : CallbackData) : List UInt16 := Utf16.unitsOf data.name.bytes

inductive SetContext where
  | set | alreadyDefined | failed
  deriving DecidableEq, Repr

structure WriteData extends CallbackData where
  length : UInt32
  offset : UInt64
  passive : Bool
  contextAllocated : Bool
  setContext : SetContext

def WriteData.env (data : WriteData) : Stream.WriteEnv :=
  ⟨data.length, data.offset.toInt64.toInt, data.queryOk, data.recordAllocated, data.passive, data.contextAllocated⟩

/-- `RenameContext`; its `OldPath` is `captureOldPath` of the name. -/
structure RenameContext where
  id : ℕ
  name : UnicodeString

structure PendingSetInfo where
  parameters : SetFileInformation
  context : Option RenameContext

inductive Operation where
  | create (information : UInt64)
  | write
  | cleanup
  | setInfo (parameters : SetFileInformation)

/-- A pushed record, with the completed operation it is about (history). -/
structure Report where
  emission : Emission
  operation : Operation
  status : UInt32

/-! ## State -/

/-- The rename contexts, numbered as they are allocated. -/
structure RenamePool where
  allocated : ℕ
  pending : ℕ → Option PendingSetInfo
  freed : List ℕ

/-- `armed` holds the completion status of each write that armed its stream (history). -/
structure FileFilter where
  watch : FileWatch
  dropWatch : FileWatch
  renames : RenamePool
  reported : List Report
  armed : List UInt32
  fileNameQueriesFailed : ℕ
  allocFailures : ℕ
  noiseWritesSkipped : ℕ
  dropsMissedBusy : ℕ

namespace RenamePool

def start (pool : RenamePool) (id : ℕ) (pending : PendingSetInfo) : RenamePool :=
  { pool with pending := Function.update pool.pending id (some pending) }

def complete (pool : RenamePool) (id : ℕ) : RenamePool :=
  { pool with pending := Function.update pool.pending id none }

def free (pool : RenamePool) : Option RenameContext → RenamePool
  | some context => { pool with freed := pool.freed ++ [context.id] }
  | none => pool

end RenamePool

namespace FileFilter

def fresh (watch dropWatch : FileWatch) : FileFilter := ⟨watch, dropWatch, ⟨0, fun _ => none, []⟩, [], [], 0, 0, 0, 0⟩

/-! ## Callbacks -/

def countQuery (s : FileFilter) : FileFilter := { s with fileNameQueriesFailed := s.fileNameQueriesFailed + 1 }

def countAllocation (s : FileFilter) : FileFilter := { s with allocFailures := s.allocFailures + 1 }

/-- `ExFreePool`, of a context that may be null. -/
def exFreePool (s : FileFilter) (context : Option RenameContext) : FileFilter :=
  { s with renames := s.renames.free context }

/-- `AllocRecord` and `PushRecord`. -/
def report (s : FileFilter) (data : CallbackData) (emission : Emission) (operation : Operation) : FileFilter :=
  if !data.recordAllocated then s.countAllocation
  else { s with reported := s.reported ++ [⟨emission, operation, data.status⟩] }

section
variable (upcase : UInt16 → UInt16)

/-- The end of most callbacks: a record if the watch has the path. -/
def emitWatched (s : FileFilter) (data : CallbackData) (emission : Emission) (operation : Operation) : FileFilter :=
  if s.watch.covers upcase data.path then s.report data emission operation else s

/-- `SecOutfallPreSetInfo`; `id` stands for the operation. -/
def preSetInfo (s : FileFilter) (id : ℕ) (parameters : SetFileInformation) (aboveApc queryOk : Bool)
    (name : UnicodeString) (allocated : Bool) : FileFilter :=
  if (s.renames.pending id).isSome then s
  else if !parameters.isRename && !parameters.isDelete then s
  else if !s.watch.enabled || aboveApc then s
  else if parameters.isDelete then { s with renames := s.renames.start id ⟨parameters, none⟩ }
  else if !queryOk then s.countQuery
  else if !allocated then s.countAllocation
  else
    { s with
      renames := { s.renames.start id ⟨parameters, some ⟨s.renames.allocated, name⟩⟩ with
        allocated := s.renames.allocated + 1 } }

/-- `SecOutfallPostCreate`. -/
def postCreate (s : FileFilter) (fastIoOrFsFilter : Bool) (information : UInt64) (data : CallbackData) : FileFilter :=
  if fastIoOrFsFilter then s
  else if !s.watch.enabled || !ntSuccess data.status then s
  else if information != fileSuperseded && information != fileCreated then s
  else if !data.queryOk then s.countQuery
  else s.emitWatched upcase data (.fileCreated (some data.name) data.pid data.identity) (.create information)

/-- `TryCaptureDrop` up to the context that arms the stream. -/
def tryCaptureDrop (s : FileFilter) (data : WriteData) : FileFilter :=
  if !s.dropWatch.covers upcase data.path then s
  else if !data.passive then { s with dropsMissedBusy := s.dropsMissedBusy + 1 }
  else if !data.contextAllocated then s.countAllocation
  else
    match data.setContext with
    | .set => { s with armed := s.armed ++ [data.status] }
    | .alreadyDefined => s
    | .failed => s.countAllocation

/-- `SecOutfallPostWrite`; it does not look at the status. -/
def postWrite (s : FileFilter) (data : WriteData) : FileFilter :=
  if !s.watch.enabled then s
  else if data.length = 0 then s
  else if Stream.isNoise data.env then { s with noiseWritesSkipped := s.noiseWritesSkipped + 1 }
  else if !data.queryOk then s.countQuery
  else
    (s.emitWatched upcase data.toCallbackData
      (.fileWritten (some data.name) data.offset data.length data.pid data.identity) .write).tryCaptureDrop upcase data

/-- `SecOutfallPostCleanup` without `TryCleanupCopy`. -/
def postCleanup (s : FileFilter) (fastIoOrFsFilter : Bool) (data : CallbackData) : FileFilter :=
  if fastIoOrFsFilter then s
  else if !s.watch.enabled then s
  else if !data.queryOk then s.countQuery
  else s.emitWatched upcase data (.fileCleanedUp (some data.name) data.pid data.identity) .cleanup

/-- The record of a completed operation on a file's name; a rename without its context has none. -/
def emitSetInfo (s : FileFilter) (operation : PendingSetInfo) (data : CallbackData) : FileFilter :=
  if operation.parameters.isDelete then
    s.emitWatched upcase data (.fileDeleted (some data.name) data.pid data.identity) (.setInfo operation.parameters)
  else
    match operation.context with
    | some context =>
      s.emitWatched upcase data (.fileRenamed (some context.name) (some data.name) data.pid data.identity)
        (.setInfo operation.parameters)
    | none => s

/-- `SecOutfallPostSetInfo`, for an operation whose pre-operation callback asked for it. -/
def postSetInfo (s : FileFilter) (id : ℕ) (draining : Bool) (data : CallbackData) : FileFilter :=
  match s.renames.pending id with
  | none => s
  | some operation =>
    let s := { s with renames := s.renames.complete id }
    if draining then s.exFreePool operation.context
    else if !operation.parameters.isDelete && !operation.parameters.isRename then s
    else if !ntSuccess data.status then s.exFreePool operation.context
    else if !s.watch.enabled then s.exFreePool operation.context
    else if !data.queryOk then s.countQuery.exFreePool operation.context
    else (s.emitSetInfo upcase operation data).exFreePool operation.context

end

/-! ## Steps -/

inductive Op where
  | setFileWatch (watch : FileWatch)
  | setDropPolicy (dropWatch : FileWatch)
  | preSetInfo (id : ℕ) (parameters : SetFileInformation) (aboveApc queryOk : Bool) (name : UnicodeString)
      (allocated : Bool)
  | postCreate (fastIoOrFsFilter : Bool) (information : UInt64) (data : CallbackData)
  | postWrite (data : WriteData)
  | postCleanup (fastIoOrFsFilter : Bool) (data : CallbackData)
  | postSetInfo (id : ℕ) (draining : Bool) (data : CallbackData)

def step (upcase : UInt16 → UInt16) (s : FileFilter) : Op → FileFilter
  | .setFileWatch watch => { s with watch }
  | .setDropPolicy dropWatch => { s with dropWatch }
  | .preSetInfo id parameters aboveApc queryOk name allocated =>
    s.preSetInfo id parameters aboveApc queryOk name allocated
  | .postCreate fastIoOrFsFilter information data => s.postCreate upcase fastIoOrFsFilter information data
  | .postWrite data => s.postWrite upcase data
  | .postCleanup fastIoOrFsFilter data => s.postCleanup upcase fastIoOrFsFilter data
  | .postSetInfo id draining data => s.postSetInfo upcase id draining data

/-! ## What happened -/

end FileFilter

def Report.warranted (report : Report) : Bool :=
  match report.emission, report.operation with
  | .fileCreated _ _ _, .create information =>
    ntSuccess report.status && (information == fileSuperseded || information == fileCreated)
  | .fileWritten _ _ _ _ _, .write => ntSuccess report.status
  | .fileRenamed _ _ _ _, .setInfo parameters => ntSuccess report.status && parameters.isRename
  | .fileDeleted _ _ _, .setInfo parameters => ntSuccess report.status && parameters.asksDeletion
  | .fileCleanedUp _ _ _, .cleanup => true
  | _, _ => false

namespace RenamePool

/-- The context an operation under way has with it. -/
def holder (pool : RenamePool) (id : ℕ) : Option ℕ :=
  (pool.pending id).bind fun pending => pending.context.map RenameContext.id

/-- An allocated context is with one operation under way and not freed, or with none and freed once. -/
structure FreedOnce (pool : RenamePool) : Prop where
  single : ∀ id id' context, pool.holder id = some context → pool.holder id' = some context → id = id'
  held : ∀ id context, pool.holder id = some context → context < pool.allocated ∧ pool.freed.count context = 0
  spent : ∀ context < pool.allocated, (∀ id, pool.holder id ≠ some context) → pool.freed.count context = 1
  unused : ∀ context, pool.allocated ≤ context → pool.freed.count context = 0

/-- Only a rename has a context. -/
structure Accounted (pool : RenamePool) : Prop extends FreedOnce pool where
  ofRename : ∀ id pending, pool.pending id = some pending → pending.context ≠ none →
    pending.parameters.isRename = true

section
variable {pool : RenamePool} {id : ℕ}

theorem holder_start (pending : PendingSetInfo) :
    (pool.start id pending).holder = Function.update pool.holder id (pending.context.map RenameContext.id) := by
  funext id'
  by_cases hid : id' = id
  · subst hid
    simp [holder, start]
  · simp [holder, start, hid]

theorem holder_complete : (pool.complete id).holder = Function.update pool.holder id none := by
  funext id'
  by_cases hid : id' = id
  · subst hid
    simp [holder, complete]
  · simp [holder, complete, hid]

theorem holder_of_pending {pending : PendingSetInfo} (h : pool.pending id = some pending) :
    pool.holder id = pending.context.map RenameContext.id := by
  rw [holder, h]
  rfl

theorem pending_start {pending pending' : PendingSetInfo} {id' : ℕ}
    (h : (pool.start id pending).pending id' = some pending') :
    pool.pending id' = some pending' ∨ pending' = pending := by
  by_cases hid : id' = id
  · subst hid
    exact .inr (by simpa [start, eq_comm] using h)
  · exact .inl (by simpa [start, hid] using h)

theorem pending_complete {pending : PendingSetInfo} {id' : ℕ} (h : (pool.complete id).pending id' = some pending) :
    pool.pending id' = some pending := by
  by_cases hid : id' = id
  · subst hid
    simp [complete] at h
  · simpa [complete, hid] using h

/-- An operation without a context. -/
theorem Accounted.start_without (h : pool.Accounted) (hid : pool.pending id = none)
    (parameters : SetFileInformation) : (pool.start id ⟨parameters, none⟩).Accounted := by
  have hnone : pool.holder id = none := by
    rw [holder, hid]
    rfl
  have hsame : (pool.start id ⟨parameters, none⟩).holder = pool.holder := by
    rw [holder_start, Option.map_none, ← hnone, Function.update_eq_self]
  refine ⟨⟨?_, ?_, ?_, h.unused⟩, ?_⟩
  · rw [hsame]
    exact h.single
  · rw [hsame]
    exact h.held
  · rw [hsame]
    exact h.spent
  · intro id' pending hpending hcontext
    obtain hold | rfl := pending_start hpending
    · exact h.ofRename id' pending hold hcontext
    · exact absurd rfl hcontext

/-- A rename takes the next context. -/
theorem Accounted.start_rename (h : pool.Accounted) {parameters : SetFileInformation}
    (hrename : parameters.isRename = true) (hid : pool.pending id = none) (name : UnicodeString) :
    { pool.start id ⟨parameters, some ⟨pool.allocated, name⟩⟩ with allocated := pool.allocated + 1 }.Accounted := by
  have hholder : (pool.start id ⟨parameters, some ⟨pool.allocated, name⟩⟩).holder =
      Function.update pool.holder id (some pool.allocated) := holder_start _
  have hnone : pool.holder id = none := by
    rw [holder, hid]
    rfl
  have hnew : ∀ id', pool.holder id' ≠ some pool.allocated := fun id' hheld =>
    Nat.lt_irrefl _ (h.held id' _ hheld).1
  have hcases : ∀ id' context, Function.update pool.holder id (some pool.allocated) id' = some context →
      id' = id ∧ context = pool.allocated ∨ pool.holder id' = some context := by
    intro id' context hheld
    by_cases hid' : id' = id
    · rw [hid', Function.update_self] at hheld
      exact .inl ⟨hid', (Option.some.inj hheld).symm⟩
    · rw [Function.update_of_ne hid'] at hheld
      exact .inr hheld
  refine ⟨⟨?_, ?_, ?_, ?_⟩, ?_⟩
  · intro id₁ id₂ context h₁ h₂
    obtain ⟨rfl, rfl⟩ | h₁ := hcases id₁ context (hholder ▸ h₁)
    · obtain ⟨rfl, -⟩ | h₂ := hcases id₂ _ (hholder ▸ h₂)
      · rfl
      · exact absurd h₂ (hnew id₂)
    · obtain ⟨-, rfl⟩ | h₂ := hcases id₂ context (hholder ▸ h₂)
      · exact absurd h₁ (hnew id₁)
      · exact h.single id₁ id₂ context h₁ h₂
  · intro id' context hheld
    obtain ⟨-, rfl⟩ | hheld := hcases id' context (hholder ▸ hheld)
    · exact ⟨Nat.lt_succ_self _, h.unused _ (Nat.le_refl _)⟩
    · obtain ⟨hlt, hcount⟩ := h.held id' context hheld
      exact ⟨Nat.lt_succ_of_lt hlt, hcount⟩
  · intro context hlt hfree
    obtain hlt | rfl := Nat.lt_succ_iff_lt_or_eq.mp hlt
    · refine h.spent context hlt fun id' hheld => hfree id' ?_
      have hne : id' ≠ id := by
        rintro rfl
        rw [hnone] at hheld
        cases hheld
      exact (congrFun hholder id').trans ((Function.update_of_ne hne _ _).trans hheld)
    · exact absurd ((congrFun hholder id).trans (Function.update_self _ _ _)) (hfree id)
  · exact fun context hle => h.unused context (Nat.le_of_succ_le hle)
  · intro id' pending hpending hcontext
    obtain hold | rfl := pending_start hpending
    · exact h.ofRename id' pending hold hcontext
    · exact hrename

/-- The end of an operation frees the context it has, if any. -/
theorem Accounted.finish (h : pool.Accounted) {pending : PendingSetInfo} (hid : pool.pending id = some pending) :
    ((pool.complete id).free pending.context).Accounted := by
  have hholder : ((pool.complete id).free pending.context).holder = Function.update pool.holder id none := by
    cases pending.context <;> exact holder_complete
  have hpending : ((pool.complete id).free pending.context).pending = (pool.complete id).pending := by
    cases pending.context <;> rfl
  have hallocated : ((pool.complete id).free pending.context).allocated = pool.allocated := by
    cases pending.context <;> rfl
  have hfreed : ∀ context, ((pool.complete id).free pending.context).freed.count context =
      pool.freed.count context + if pool.holder id = some context then 1 else 0 := by
    intro context
    rw [holder_of_pending hid]
    cases pending.context with
    | none => simp [free, complete]
    | some held => simp [free, complete, List.count_append, List.count_singleton]
  have hother : ∀ id' context, Function.update pool.holder id none id' = some context →
      id' ≠ id ∧ pool.holder id' = some context := by
    intro id' context hheld
    by_cases hid' : id' = id
    · rw [hid', Function.update_self] at hheld
      cases hheld
    · rw [Function.update_of_ne hid'] at hheld
      exact ⟨hid', hheld⟩
  refine ⟨⟨?_, ?_, ?_, ?_⟩, ?_⟩
  · intro id₁ id₂ context h₁ h₂
    rw [hholder] at h₁ h₂
    exact h.single id₁ id₂ context (hother id₁ context h₁).2 (hother id₂ context h₂).2
  · intro id' context hheld
    rw [hholder] at hheld
    obtain ⟨hne, hheld⟩ := hother id' context hheld
    have hnot : pool.holder id ≠ some context := fun hsame => hne (h.single id' id context hheld hsame)
    rw [hallocated, hfreed, if_neg hnot]
    exact h.held id' context hheld
  · intro context hlt hfree
    rw [hallocated] at hlt
    rw [hfreed]
    by_cases hheld : pool.holder id = some context
    · rw [if_pos hheld, (h.held id context hheld).2]
    · rw [if_neg hheld]
      refine h.spent context hlt fun id' hheld' => hfree id' ?_
      have hne : id' ≠ id := by
        rintro rfl
        exact hheld hheld'
      rw [hholder, Function.update_of_ne hne]
      exact hheld'
  · intro context hle
    rw [hallocated] at hle
    have hnot : pool.holder id ≠ some context := fun hheld => Nat.not_lt.mpr hle (h.held id context hheld).1
    rw [hfreed, if_neg hnot]
    exact h.unused context hle
  · intro id' pending' hpending'
    rw [hpending] at hpending'
    exact h.ofRename id' pending' (pending_complete hpending')

theorem fresh_accounted : RenamePool.Accounted ⟨0, fun _ => none, []⟩ where
  single _ _ _ h := by cases h
  held _ _ h := by cases h
  spent _ h := absurd h (Nat.not_lt_zero _)
  unused _ _ := rfl
  ofRename _ _ h := by cases h

end

end RenamePool

namespace FileFilter

/-! ## Contexts over a step -/

section
variable (upcase : UInt16 → UInt16) (s : FileFilter)

theorem renames_report (data : CallbackData) (emission : Emission) (operation : Operation) :
    (s.report data emission operation).renames = s.renames := by
  unfold report
  split <;> rfl

theorem renames_emitWatched (data : CallbackData) (emission : Emission) (operation : Operation) :
    (s.emitWatched upcase data emission operation).renames = s.renames := by
  unfold emitWatched
  split
  · exact s.renames_report data emission operation
  · rfl

theorem renames_postCreate (fastIoOrFsFilter : Bool) (information : UInt64) (data : CallbackData) :
    (s.postCreate upcase fastIoOrFsFilter information data).renames = s.renames := by
  unfold postCreate
  split_ifs
  any_goals rfl
  exact s.renames_emitWatched upcase data _ _

theorem renames_tryCaptureDrop (data : WriteData) : (s.tryCaptureDrop upcase data).renames = s.renames := by
  unfold tryCaptureDrop
  split_ifs
  any_goals rfl
  cases data.setContext <;> rfl

theorem renames_postWrite (data : WriteData) : (s.postWrite upcase data).renames = s.renames := by
  unfold postWrite
  split_ifs
  any_goals rfl
  rw [renames_tryCaptureDrop, renames_emitWatched]

theorem renames_postCleanup (fastIoOrFsFilter : Bool) (data : CallbackData) :
    (s.postCleanup upcase fastIoOrFsFilter data).renames = s.renames := by
  unfold postCleanup
  split_ifs
  any_goals rfl
  exact s.renames_emitWatched upcase data _ _

theorem renames_emitSetInfo (operation : PendingSetInfo) (data : CallbackData) :
    (s.emitSetInfo upcase operation data).renames = s.renames := by
  unfold emitSetInfo
  split
  · exact s.renames_emitWatched upcase data _ _
  · split
    · exact s.renames_emitWatched upcase data _ _
    · rfl

variable {s}

/-- Whichever way the callback ends, it has freed its context. -/
theorem renames_postSetInfo {id : ℕ} {operation : PendingSetInfo} (hid : s.renames.pending id = some operation)
    (hrename : operation.context ≠ none → operation.parameters.isRename = true) (draining : Bool)
    (data : CallbackData) :
    (s.postSetInfo upcase id draining data).renames = (s.renames.complete id).free operation.context := by
  unfold postSetInfo
  rw [hid]
  simp only
  split_ifs with hdraining hcls
  · rfl
  · have hnone : operation.context = none := by
      by_contra hcontext
      simp [hrename hcontext] at hcls
    rw [hnone]
    rfl
  · rfl
  · rfl
  · rfl
  · exact congrArg (RenamePool.free · operation.context) (renames_emitSetInfo upcase _ operation data)

end

theorem accounted_step (upcase : UInt16 → UInt16) {s : FileFilter} (h : s.renames.Accounted) (op : Op) :
    (s.step upcase op).renames.Accounted := by
  cases op with
  | setFileWatch watch => exact h
  | setDropPolicy dropWatch => exact h
  | preSetInfo id parameters aboveApc queryOk name allocated =>
    rw [step, preSetInfo]
    split_ifs with hbusy hcls _ hdelete
    · exact h
    · exact h
    · exact h
    · exact h.start_without (by simpa using hbusy) parameters
    · exact h
    · exact h
    · have hrename : parameters.isRename = true := by
        by_contra hnot
        exact hcls (by simp [hnot, hdelete])
      exact h.start_rename hrename (by simpa using hbusy) name
  | postCreate fastIoOrFsFilter information data =>
    rw [step, renames_postCreate]
    exact h
  | postWrite data =>
    rw [step, renames_postWrite]
    exact h
  | postCleanup fastIoOrFsFilter data =>
    rw [step, renames_postCleanup]
    exact h
  | postSetInfo id draining data =>
    rw [step]
    cases hid : s.renames.pending id with
    | none =>
      rw [postSetInfo, hid]
      exact h
    | some operation =>
      rw [renames_postSetInfo upcase hid (h.ofRename id operation hid)]
      exact h.finish hid

/-! ## Reports over a step -/

/-- Every record and every armed stream is of an operation that happened. -/
structure Warranted (s : FileFilter) : Prop where
  reported : ∀ report ∈ s.reported, report.warranted = true
  armed : ∀ status ∈ s.armed, ntSuccess status = true

/-- And every rename context is freed once. -/
structure Truthful (s : FileFilter) : Prop extends Warranted s where
  freedOnce : s.renames.FreedOnce

section
variable (upcase : UInt16 → UInt16) (s : FileFilter)

/-- The watch has the path and there is memory for the record. -/
def records (data : CallbackData) : Bool := s.watch.covers upcase data.path && data.recordAllocated

/-- The drop policy has the path and the context can be set. -/
def arms (data : WriteData) : Bool :=
  s.dropWatch.covers upcase data.path && data.passive && data.contextAllocated && data.setContext == .set

/-- A failed write comes to nothing else, and a disposition that cancels is not recorded. -/
def confirms : Op → Bool
  | .postWrite data =>
    ntSuccess data.status || !s.watch.enabled || data.length == 0 || Stream.isNoise data.env || !data.queryOk ||
      !(s.records upcase data.toCallbackData || s.arms upcase data)
  | .postSetInfo id draining data =>
    match s.renames.pending id with
    | some operation =>
      !operation.parameters.isDelete || operation.parameters.asksDeletion || draining || !ntSuccess data.status ||
        !s.watch.enabled || !data.queryOk || !s.records upcase data
    | none => true
  | _ => true

variable {s}

theorem warranted_congr {s' : FileFilter} (hreported : s'.reported = s.reported) (harmed : s'.armed = s.armed) :
    s'.Warranted ↔ s.Warranted := by
  constructor
  · exact fun h => ⟨hreported ▸ h.reported, harmed ▸ h.armed⟩
  · exact fun h => ⟨hreported.symm ▸ h.reported, harmed.symm ▸ h.armed⟩

theorem warranted_exFreePool (context : Option RenameContext) : (s.exFreePool context).Warranted ↔ s.Warranted :=
  warranted_congr rfl rfl

theorem warranted_countQuery : s.countQuery.Warranted ↔ s.Warranted := warranted_congr rfl rfl

theorem warranted_emitWatched (data : CallbackData) (emission : Emission) (operation : Operation) :
    (s.emitWatched upcase data emission operation).Warranted ↔
      s.Warranted ∧
        (s.records upcase data = true → (Report.mk emission operation data.status).warranted = true) := by
  unfold emitWatched report records
  by_cases hcovers : s.watch.covers upcase data.path = true
  · cases hallocated : data.recordAllocated with
    | false =>
      rw [if_pos hcovers]
      simp only [Bool.not_false, if_true, Bool.and_false, Bool.false_eq_true, false_implies, and_true]
      exact warranted_congr rfl rfl
    | true =>
      rw [if_pos hcovers, hcovers]
      simp only [Bool.not_true, Bool.false_eq_true, if_false, Bool.and_true, true_implies]
      constructor
      · intro h
        exact ⟨⟨fun report hreport => h.reported report (List.mem_append_left _ hreport), h.armed⟩,
          h.reported _ (by simp)⟩
      · rintro ⟨h, hnew⟩
        refine ⟨fun report hreport => ?_, h.armed⟩
        obtain hold | hlast := List.mem_append.mp hreport
        · exact h.reported report hold
        · rw [List.mem_singleton.mp hlast]
          exact hnew
  · rw [if_neg hcovers, Bool.eq_false_iff.mpr hcovers]
    simp

theorem warranted_tryCaptureDrop (data : WriteData) :
    (s.tryCaptureDrop upcase data).Warranted ↔
      s.Warranted ∧ (s.arms upcase data = true → ntSuccess data.status = true) := by
  unfold tryCaptureDrop arms
  split_ifs with hcovers hpassive hcontext
  · have hno : s.dropWatch.covers upcase data.path = false := by simpa using hcovers
    rw [hno]
    simp
  · have hno : data.passive = false := by simpa using hpassive
    rw [hno]
    simp only [Bool.and_false, Bool.false_and, Bool.false_eq_true, false_implies, and_true]
    exact warranted_congr rfl rfl
  · have hno : data.contextAllocated = false := by simpa using hcontext
    rw [hno]
    simp only [Bool.and_false, Bool.false_and, Bool.false_eq_true, false_implies, and_true]
    exact warranted_congr rfl rfl
  · have hready : (s.dropWatch.covers upcase data.path && data.passive && data.contextAllocated) = true := by
      simp_all
    rw [hready, Bool.true_and]
    cases data.setContext with
    | set =>
      constructor
      · intro h
        exact ⟨⟨h.reported, fun status hstatus => h.armed status (List.mem_append_left _ hstatus)⟩,
          fun _ => h.armed data.status (by simp)⟩
      · rintro ⟨h, hnew⟩
        refine ⟨h.reported, fun status hstatus => ?_⟩
        obtain hold | hlast := List.mem_append.mp hstatus
        · exact h.armed status hold
        · rw [List.mem_singleton.mp hlast]
          exact hnew rfl
    | alreadyDefined => simp
    | failed =>
      have hno : (SetContext.failed == SetContext.set) = false := rfl
      rw [hno]
      simp only [Bool.false_eq_true, false_implies, and_true]
      exact warranted_congr rfl rfl

theorem Warranted.postCreate (h : s.Warranted) (fastIoOrFsFilter : Bool) (information : UInt64)
    (data : CallbackData) : (s.postCreate upcase fastIoOrFsFilter information data).Warranted := by
  unfold FileFilter.postCreate
  split_ifs with _ hstatus hinformation
  · exact h
  · exact h
  · exact h
  · exact (warranted_countQuery).mpr h
  · refine (warranted_emitWatched upcase data _ _).mpr ⟨h, fun _ => ?_⟩
    simp only [Bool.or_eq_true, Bool.not_eq_true', not_or, Bool.not_eq_false] at hstatus
    simp only [Bool.and_eq_true, bne_iff_ne, ne_eq, not_and, not_not] at hinformation
    simp only [Report.warranted, hstatus.2, Bool.true_and, Bool.or_eq_true, beq_iff_eq]
    by_cases hsuperseded : information = fileSuperseded
    · exact .inl hsuperseded
    · exact .inr (hinformation hsuperseded)

theorem Warranted.postCleanup (h : s.Warranted) (fastIoOrFsFilter : Bool) (data : CallbackData) :
    (s.postCleanup upcase fastIoOrFsFilter data).Warranted := by
  unfold FileFilter.postCleanup
  split_ifs
  · exact h
  · exact h
  · exact (warranted_countQuery).mpr h
  · exact (warranted_emitWatched upcase data _ _).mpr ⟨h, fun _ => rfl⟩

theorem Warranted.preSetInfo (h : s.Warranted) (id : ℕ) (parameters : SetFileInformation)
    (aboveApc queryOk : Bool) (name : UnicodeString) (allocated : Bool) :
    (s.preSetInfo id parameters aboveApc queryOk name allocated).Warranted := by
  unfold FileFilter.preSetInfo
  split_ifs
  all_goals exact ⟨h.reported, h.armed⟩

/-- The write's callback is right exactly about a write that succeeded, or that it drops for another reason. -/
theorem warranted_postWrite_iff (h : s.Warranted) (data : WriteData) :
    (s.postWrite upcase data).Warranted ↔ s.confirms upcase (.postWrite data) = true := by
  rw [postWrite, confirms]
  by_cases hsuccess : ntSuccess data.status = true
  · rw [hsuccess]
    refine iff_of_true ?_ (by simp)
    split_ifs
    · exact h
    · exact h
    · exact ⟨h.reported, h.armed⟩
    · exact warranted_countQuery.mpr h
    · refine (warranted_tryCaptureDrop upcase data).mpr ⟨?_, fun _ => hsuccess⟩
      exact (warranted_emitWatched upcase _ _ _).mpr ⟨h, fun _ => hsuccess⟩
  · rw [Bool.eq_false_iff.mpr hsuccess]
    split_ifs with henabled hlength hnoise hquery
    · exact iff_of_true h (by simp_all)
    · exact iff_of_true h (by simp_all)
    · exact iff_of_true ⟨h.reported, h.armed⟩ (by simp_all)
    · exact iff_of_true (warranted_countQuery.mpr h) (by simp_all)
    · have harms : (s.emitWatched upcase data.toCallbackData
          (.fileWritten (some data.name) data.offset data.length data.pid data.identity) .write).arms upcase data =
          s.arms upcase data := by
        unfold emitWatched report
        split_ifs <;> rfl
      have hreport : (Report.mk (.fileWritten (some data.name) data.offset data.length data.pid data.identity)
          .write data.status).warranted = false := Bool.eq_false_iff.mpr hsuccess
      rw [warranted_tryCaptureDrop, warranted_emitWatched, harms, hreport, Bool.eq_false_iff.mpr hsuccess]
      simp_all

theorem warranted_emitSetInfo_iff (h : s.Warranted) {operation : PendingSetInfo} {data : CallbackData}
    (hrename : operation.context ≠ none → operation.parameters.isRename = true)
    (hsuccess : ntSuccess data.status = true) :
    (s.emitSetInfo upcase operation data).Warranted ↔
      (!operation.parameters.isDelete || operation.parameters.asksDeletion || !s.records upcase data) = true := by
  unfold emitSetInfo
  by_cases hdelete : operation.parameters.isDelete = true
  · have hreport : (Report.mk (.fileDeleted (some data.name) data.pid data.identity) (.setInfo operation.parameters)
        data.status).warranted = operation.parameters.asksDeletion := by simp [Report.warranted, hsuccess]
    rw [if_pos hdelete, warranted_emitWatched, hdelete, hreport]
    cases s.records upcase data <;> simp [h]
  · rw [if_neg hdelete, Bool.eq_false_iff.mpr hdelete]
    refine iff_of_true ?_ rfl
    cases hcontext : operation.context with
    | none => exact h
    | some context =>
      refine (warranted_emitWatched upcase data _ _).mpr ⟨h, fun _ => ?_⟩
      simp [Report.warranted, hsuccess, hrename (by simp [hcontext])]

/-- A successful disposition is recorded rightly exactly if it asked for the deletion. -/
theorem warranted_postSetInfo_iff (haccounted : s.renames.Accounted) (h : s.Warranted) (id : ℕ) (draining : Bool)
    (data : CallbackData) :
    (s.postSetInfo upcase id draining data).Warranted ↔
      s.confirms upcase (.postSetInfo id draining data) = true := by
  rw [postSetInfo, confirms]
  cases hid : s.renames.pending id with
  | none => exact iff_of_true h rfl
  | some operation =>
    have hkept : { s with renames := s.renames.complete id }.Warranted := ⟨h.reported, h.armed⟩
    simp only
    split_ifs with hdraining hcls hstatus henabled hquery
    · exact iff_of_true ((warranted_exFreePool _).mpr hkept) (by simp [hdraining])
    · exact iff_of_true hkept (by simp_all)
    · exact iff_of_true ((warranted_exFreePool _).mpr hkept) (by simp_all)
    · exact iff_of_true ((warranted_exFreePool _).mpr hkept) (by simp_all)
    · exact iff_of_true ((warranted_exFreePool _).mpr (warranted_countQuery.mpr hkept)) (by simp_all)
    · have hsuccess : ntSuccess data.status = true := by simpa using hstatus
      rw [warranted_exFreePool, warranted_emitSetInfo_iff upcase hkept (haccounted.ofRename id operation hid) hsuccess]
      have hrecords : { s with renames := s.renames.complete id }.records upcase data = s.records upcase data := rfl
      rw [hrecords]
      simp_all

theorem truthful_step_iff (haccounted : s.renames.Accounted) (h : s.Truthful) (op : Op) :
    (s.step upcase op).Truthful ↔ s.confirms upcase op = true := by
  have hfreed := (accounted_step upcase haccounted op).toFreedOnce
  have hsplit : (s.step upcase op).Truthful ↔ (s.step upcase op).Warranted :=
    ⟨fun htruthful => htruthful.toWarranted, fun hwarranted => ⟨hwarranted, hfreed⟩⟩
  rw [hsplit]
  cases op with
  | setFileWatch watch => exact iff_of_true ⟨h.reported, h.armed⟩ rfl
  | setDropPolicy dropWatch => exact iff_of_true ⟨h.reported, h.armed⟩ rfl
  | preSetInfo id parameters aboveApc queryOk name allocated =>
    exact iff_of_true (h.toWarranted.preSetInfo id parameters aboveApc queryOk name allocated) rfl
  | postCreate fastIoOrFsFilter information data =>
    exact iff_of_true (h.toWarranted.postCreate upcase fastIoOrFsFilter information data) rfl
  | postWrite data => exact warranted_postWrite_iff upcase h.toWarranted data
  | postCleanup fastIoOrFsFilter data =>
    exact iff_of_true (h.toWarranted.postCleanup upcase fastIoOrFsFilter data) rfl
  | postSetInfo id draining data => exact warranted_postSetInfo_iff upcase haccounted h.toWarranted id draining data

end

/-! ## Runs -/

theorem fresh_truthful (watch dropWatch : FileWatch) : (fresh watch dropWatch).Truthful where
  reported _ h := absurd h List.not_mem_nil
  armed _ h := absurd h List.not_mem_nil
  freedOnce := RenamePool.fresh_accounted.toFreedOnce

/-- Over every sequence of callbacks the telemetry is of what happened exactly if every write it follows up
succeeded and every successful disposition it records asked for the deletion. -/
theorem along_confirms_iff (upcase : UInt16 → UInt16) (watch dropWatch : FileWatch) (ops : List Op) :
    Along (step upcase) (fun s op => s.confirms upcase op = true) (fresh watch dropWatch) ops ↔
      ∀ before after, ops = before ++ after → (run (step upcase) (fresh watch dropWatch) before).Truthful :=
  along_iff_good (I := fun s : FileFilter => s.renames.Accounted) (fun _ op h => accounted_step upcase h op)
    (fun _ op haccounted h => truthful_step_iff upcase haccounted h op) RenamePool.fresh_accounted
    (fresh_truthful watch dropWatch)

def everyFile : FileWatch := ⟨true, []⟩

/-- `\a`, of two WCHARs. -/
def shortName : UnicodeString := ⟨[0x5C, 0, 0x61, 0], by decide⟩

def completed (status : UInt32) : CallbackData := ⟨4, 0, status, shortName, true, true⟩

/-- A write that fails on a full disk is recorded and arms its stream, and a disposition that takes a
deletion back is recorded as one. -/
theorem failedWrite_cancelledDelete_untruthful :
    ¬ (run (step id) (fresh everyFile everyFile)
      [.postWrite ⟨completed 0xC000007F, 10, 0, true, true, .set⟩]).Truthful ∧
    ¬ (run (step id) (fresh everyFile everyFile)
      [.preSetInfo 0 ⟨.disposition, 0⟩ false true shortName true, .postSetInfo 0 false (completed 0)]).Truthful := by
  constructor
  · intro h
    have harmed : ntSuccess 0xC000007F = true := h.armed 0xC000007F (by decide)
    exact absurd harmed (by decide)
  · intro h
    have hreported := h.reported ⟨.fileDeleted (some shortName) 4 0, .setInfo ⟨.disposition, 0⟩, 0⟩ (by
      rw [run_cons, run_cons, run_nil]
      exact List.mem_singleton.mpr rfl)
    exact absurd hreported (by decide)

/-! ## The stream's own capture -/

theorem armed_emitWatched (upcase : UInt16 → UInt16) (s : FileFilter) (data : CallbackData) (emission : Emission)
    (operation : Operation) : (s.emitWatched upcase data emission operation).armed = s.armed := by
  unfold emitWatched report
  split_ifs <;> rfl

theorem dropWatch_emitWatched (upcase : UInt16 → UInt16) (s : FileFilter) (data : CallbackData)
    (emission : Emission) (operation : Operation) :
    (s.emitWatched upcase data emission operation).dropWatch = s.dropWatch := by
  unfold emitWatched report
  split_ifs <;> rfl

theorem callbacks_goto_self (stream : Stream) (t : ℕ) (callback : Callback) :
    (stream.goto t callback).callbacks t = some callback := by
  simp [Stream.goto]

theorem armed_tryCaptureDrop (upcase : UInt16 → UInt16) {s : FileFilter} {data : WriteData} {stream : Stream}
    {t : ℕ} (hdropWatch : stream.dropWatch = s.dropWatch) (hpath : stream.path = data.path) :
    (s.tryCaptureDrop upcase data).armed =
      if (stream.tryCaptureDrop upcase t data.env).callbacks t = some .contextAllocated ∧ data.setContext = .set then
        s.armed ++ [data.status]
      else s.armed := by
  rw [tryCaptureDrop, Stream.tryCaptureDrop, hdropWatch, hpath]
  by_cases hcovers : (!s.dropWatch.covers upcase data.path) = true
  · rw [if_pos hcovers, if_pos hcovers, if_neg (by simp [Stream.returnWrite])]
  by_cases hpassive : (!data.passive) = true
  · have hpassive' : (!data.env.passive) = true := hpassive
    rw [if_neg hcovers, if_pos hpassive, if_neg hcovers, if_pos hpassive', if_neg (by simp [Stream.returnWrite])]
  have hpassive' : ¬ (!data.env.passive) = true := hpassive
  by_cases hcontext : (!data.contextAllocated) = true
  · have hcontext' : (!data.env.contextAllocated) = true := hcontext
    rw [if_neg hcovers, if_neg hpassive, if_pos hcontext, if_neg hcovers, if_neg hpassive', if_pos hcontext',
      if_neg (by simp [Stream.returnWrite])]
    rfl
  have hcontext' : ¬ (!data.env.contextAllocated) = true := hcontext
  rw [if_neg hcovers, if_neg hpassive, if_neg hcontext, if_neg hcovers, if_neg hpassive', if_neg hcontext',
    callbacks_goto_self]
  cases data.setContext with
  | set => rw [if_pos ⟨rfl, rfl⟩]
  | alreadyDefined => rw [if_neg (by simp)]
  | failed =>
    rw [if_neg (by simp)]
    rfl

/-- A write arms its stream where the stream's own callback comes to set the context, and sets it. -/
theorem armed_postWrite (upcase : UInt16 → UInt16) {s : FileFilter} {data : WriteData} {stream : Stream} {t : ℕ}
    (hidle : stream.callbacks t = none) (hwatch : stream.watch = s.watch) (hdropWatch : stream.dropWatch = s.dropWatch)
    (hpath : stream.path = data.path) :
    (s.postWrite upcase data).armed =
      if (stream.postWrite upcase t data.env).callbacks t = some .contextAllocated ∧ data.setContext = .set then
        s.armed ++ [data.status]
      else s.armed := by
  obtain ⟨recordAllocFailures, hrecord⟩ := stream.countRecord_eq upcase data.env.recordAllocated
  rw [postWrite, Stream.postWrite, if_neg (not_not.mpr hidle), hwatch, hrecord]
  by_cases henabled : (!s.watch.enabled) = true
  · rw [if_pos henabled, if_pos henabled, if_neg (by simp [hidle])]
  by_cases hlength : data.length = 0
  · have hlength' : data.env.length = 0 := hlength
    rw [if_neg henabled, if_pos hlength, if_neg henabled, if_pos hlength', if_neg (by simp [hidle])]
  have hlength' : data.env.length ≠ 0 := hlength
  rw [if_neg henabled, if_neg hlength, if_neg henabled, if_neg hlength']
  by_cases hnoise : Stream.isNoise data.env = true
  · rw [if_pos hnoise, if_pos hnoise, if_neg (by simp [Stream.returnWrite])]
  by_cases hquery : (!data.queryOk) = true
  · have hquery' : (!data.env.queryOk) = true := hquery
    rw [if_neg hnoise, if_pos hquery, if_neg hnoise, if_pos hquery', if_neg (by simp [Stream.returnWrite])]
    rfl
  have hquery' : ¬ (!data.env.queryOk) = true := hquery
  have hsame : { stream with recordAllocFailures }.dropWatch = s.dropWatch := hdropWatch
  rw [if_neg hnoise, if_neg hquery, if_neg hnoise, if_neg hquery',
    armed_tryCaptureDrop (t := t) upcase
      (hsame.trans (dropWatch_emitWatched upcase s _ _ _).symm) hpath, armed_emitWatched]

end FileFilter

end SecOutfall.Notify
