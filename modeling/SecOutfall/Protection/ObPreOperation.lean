import SecOutfall.Foundations.CLayout
import SecOutfall.Foundations.Memory
import SecOutfall.Protection.Table
import SecOutfall.Wire.Records

/-! Handle stripping (`ObPreOperation`, `driver/secoutfall/Protection.cpp`).

The callback takes the kind of the operation from `Flags`, which carries the `KernelHandle` bit
only; the kind is in `Operation`. Create happens to have the value of that bit, so kernel handles
are stripped as created ones and user-mode handles are never stripped. -/
namespace SecOutfall.Protection
open CLayout
set_option autoImplicit false

/-! ## Access masks -/

def processTerminate : UInt64 := 0x0001
def processCreateThread : UInt64 := 0x0002
def processVmOperation : UInt64 := 0x0008
def processVmRead : UInt64 := 0x0010
def processVmWrite : UInt64 := 0x0020
def processDupHandle : UInt64 := 0x0040
def threadTerminate : UInt64 := 0x0001
def threadSuspendResume : UInt64 := 0x0002
def threadSetContext : UInt64 := 0x0010
def threadSetThreadAllowed : UInt64 := 0x0080

def processStripMask : UInt64 :=
  processTerminate ||| processCreateThread ||| processVmOperation ||| processVmRead |||
    processVmWrite ||| processDupHandle

def threadStripMask : UInt64 :=
  threadTerminate ||| threadSuspendResume ||| threadSetContext ||| threadSetThreadAllowed

/-! ## The operation -/

/-- The object a handle is opened to: a thread names its owning process. -/
inductive ObObject where
  | process (pid : UInt32)
  | thread (owner : UInt32)
  | other
  deriving DecidableEq, Repr

inductive ObOperation where
  | handleCreate | handleDuplicate
  deriving DecidableEq, Repr

def obOperationHandleCreate : UInt32 := 1
def obOperationHandleDuplicate : UInt32 := 2

-- The members of `OB_PRE_OPERATION_PARAMETERS`, a union.
namespace CreateHandleInformation

def fields : List CField := [scalar 4, scalar 4]
def desiredAccess : ℕ := offsetof fields 0

end CreateHandleInformation

namespace DuplicateHandleInformation

def fields : List CField := [scalar 4, scalar 4, scalar 8, scalar 8]
def desiredAccess : ℕ := offsetof fields 0

end DuplicateHandleInformation

/-- `OB_PRE_OPERATION_INFORMATION`; `parameters` is the memory of the union. -/
structure PreOperation where
  operation : ObOperation
  kernelHandle : Bool
  object : ObObject
  parameters : Memory

def PreOperation.flags (information : PreOperation) : UInt32 :=
  if information.kernelHandle then 1 else 0

def PreOperation.desiredAccess (information : PreOperation) : UInt32 :=
  match information.operation with
  | .handleCreate => information.parameters.word32 CreateHandleInformation.desiredAccess
  | .handleDuplicate => information.parameters.word32 DuplicateHandleInformation.desiredAccess

/-- What the callback reads besides its argument. -/
structure Context where
  table : ProtectedTable
  caller : UInt32
  passiveLevel : Bool
  identities : UInt32 → UInt64

/-- What the callback leaves behind: the operation, the counters it raised and its record. -/
structure Outcome where
  information : PreOperation
  protectionTrusted : ℕ
  protectionsStripped : ℕ
  emitted : Option Wire.Emission

def flagOn (flags flag : UInt32) : Bool := flags &&& flag != 0

/-- One of the two strips: `DesiredAccess` at `off`, the bits it had and the bits removed. -/
def stripAt (mask : UInt64) (off : ℕ) (information : PreOperation) : PreOperation × UInt64 × UInt64 :=
  let original := (information.parameters.word32 off).toUInt64
  let stripped := original &&& mask
  if stripped ≠ 0 then
    ({ information with
        parameters := information.parameters.write32 off (original &&& ~~~mask).toUInt32 },
      original, stripped)
  else (information, original, stripped)

def stripHandle (ctx : Context) (isProcess : Bool) (targetPid : UInt32) (information : PreOperation) :
    Outcome :=
  let mask := if isProcess then processStripMask else threadStripMask
  let (created, original, stripped) :=
    if flagOn information.flags obOperationHandleCreate then
      stripAt mask CreateHandleInformation.desiredAccess information
    else (information, 0, 0)
  let (result, original, stripped) :=
    if stripped = 0 ∧ flagOn information.flags obOperationHandleDuplicate then
      stripAt mask DuplicateHandleInformation.desiredAccess created
    else (created, original, stripped)
  if stripped = 0 then ⟨result, 0, 0, none⟩
  else if !ctx.passiveLevel then ⟨result, 0, 1, none⟩
  else
    ⟨result, 0, 1, some (.protectionEvent ctx.caller (ctx.identities ctx.caller) targetPid
      (ctx.table.createTimeOf targetPid) (if isProcess then 0 else 1) original stripped)⟩

def checkTarget (ctx : Context) (isProcess : Bool) (targetPid : UInt32) (information : PreOperation) :
    Outcome :=
  if !ctx.table.contains targetPid then ⟨information, 0, 0, none⟩
  else if ctx.caller == 4 || ctx.table.contains ctx.caller then ⟨information, 1, 0, none⟩
  else stripHandle ctx isProcess targetPid information

def obPreOperation (ctx : Context) (information : PreOperation) : Outcome :=
  match information.object with
  | .process pid => checkTarget ctx true pid information
  | .thread owner => checkTarget ctx false owner information
  | .other => ⟨information, 0, 0, none⟩

/-! ## What the protection is for -/

def ObObject.targetPid : ObObject → Option UInt32
  | .process pid => some pid
  | .thread owner => some owner
  | .other => none

def ObObject.stripMask : ObObject → UInt32
  | .process _ => processStripMask.toUInt32
  | .thread _ => threadStripMask.toUInt32
  | .other => 0

def Context.untrusted (ctx : Context) : Prop :=
  ctx.caller ≠ 4 ∧ ctx.table.contains ctx.caller = false

/-- The handle is to a protected process, or to a thread of one, and the caller is untrusted. -/
def Dangerous (ctx : Context) (object : ObObject) : Prop :=
  object.targetPid.any ctx.table.contains = true ∧ ctx.untrusted

instance (ctx : Context) (object : ObObject) : Decidable (Dangerous ctx object) :=
  inferInstanceAs (Decidable (_ ∧ _ ∧ _))

/-- The access an operation should be left with. -/
def Protects (ctx : Context) (before after : PreOperation) : Prop :=
  (Dangerous ctx before.object →
    after.desiredAccess = before.desiredAccess &&& ~~~before.object.stripMask) ∧
  (¬ Dangerous ctx before.object → after.desiredAccess = before.desiredAccess)

/-! ## What the callback does -/

theorem and_not_eq_self_iff {a m : UInt32} : a &&& ~~~m = a ↔ a &&& m = 0 := by
  simp only [← UInt32.toBitVec_inj, UInt32.toBitVec_and, UInt32.toBitVec_not, UInt32.toBitVec_ofNat]
  constructor <;> intro h <;> ext i hi
  all_goals
    have hbit := congrArg (fun v : BitVec 32 => v[i]) h
    simp at hbit ⊢
    exact hbit

theorem PreOperation.desiredAccess_eq (information : PreOperation) :
    information.desiredAccess = information.parameters.word32 0 := by
  cases h : information.operation <;> simp only [PreOperation.desiredAccess, h] <;> rfl

theorem stripAt_zero (mask : UInt32) (information : PreOperation) :
    (stripAt mask.toUInt64 0 information).1.desiredAccess = information.desiredAccess &&& ~~~mask := by
  rw [PreOperation.desiredAccess_eq, PreOperation.desiredAccess_eq]
  simp only [stripAt]
  split
  · rw [Memory.word32_write32]
    simp
  · rename_i hnone
    have hzero : information.parameters.word32 0 &&& mask = 0 := by
      rw [ne_eq, not_not, ← UInt32.toUInt64_and] at hnone
      exact UInt32.toUInt64_inj.mp hnone
    exact (and_not_eq_self_iff.mpr hzero).symm

theorem flagOn_create (information : PreOperation) :
    flagOn information.flags obOperationHandleCreate = information.kernelHandle := by
  cases h : information.kernelHandle <;> simp only [PreOperation.flags, h] <;> rfl

theorem flagOn_duplicate (information : PreOperation) :
    flagOn information.flags obOperationHandleDuplicate = false := by
  cases h : information.kernelHandle <;> simp only [PreOperation.flags, h] <;> rfl

/-- Behind the trust checks a kernel handle loses the mask's bits, whatever the operation; a
user-mode handle keeps its access. -/
theorem stripHandle_desiredAccess (ctx : Context) (isProcess : Bool) (targetPid : UInt32)
    (information : PreOperation) :
    (stripHandle ctx isProcess targetPid information).information.desiredAccess =
      if information.kernelHandle then
        information.desiredAccess &&&
          ~~~(if isProcess then processStripMask else threadStripMask).toUInt32
      else information.desiredAccess := by
  generalize hmask : (if isProcess then processStripMask else threadStripMask) = mask
  have hwide : mask = mask.toUInt32.toUInt64 := by
    rw [← hmask]
    cases isProcess <;> decide
  have hresult : (stripHandle ctx isProcess targetPid information).information =
      if information.kernelHandle then (stripAt mask 0 information).1 else information := by
    simp only [stripHandle, hmask, flagOn_create, flagOn_duplicate, Bool.false_eq_true, and_false, if_false]
    cases information.kernelHandle with
    | false => simp
    | true =>
      simp only [if_true]
      split_ifs <;> rfl
  rw [hresult]
  split
  · rw [hwide, stripAt_zero, ← hwide]
  · rfl

theorem checkTarget_eq (ctx : Context) (isProcess : Bool) (targetPid : UInt32)
    (information : PreOperation) :
    (checkTarget ctx isProcess targetPid information).information =
      if ctx.table.contains targetPid = true ∧ ctx.caller ≠ 4 ∧ ctx.table.contains ctx.caller = false then
        (stripHandle ctx isProcess targetPid information).information
      else information := by
  unfold checkTarget
  split_ifs <;> simp_all

theorem checkTarget_desiredAccess (ctx : Context) (isProcess : Bool) (pid : UInt32)
    (information : PreOperation) {object : ObObject} (hpid : object.targetPid = some pid)
    (hmask : object.stripMask = (if isProcess then processStripMask else threadStripMask).toUInt32) :
    (checkTarget ctx isProcess pid information).information.desiredAccess =
      if Dangerous ctx object ∧ information.kernelHandle then
        information.desiredAccess &&& ~~~object.stripMask
      else information.desiredAccess := by
  have hiff : Dangerous ctx object ↔
      ctx.table.contains pid = true ∧ ctx.caller ≠ 4 ∧ ctx.table.contains ctx.caller = false := by
    simp [Dangerous, Context.untrusted, hpid]
  rw [checkTarget_eq]
  by_cases hdangerous : Dangerous ctx object
  · rw [if_pos (hiff.mp hdangerous), stripHandle_desiredAccess, ← hmask]
    simp [hdangerous]
  · rw [if_neg (mt hiff.mpr hdangerous), if_neg fun h => hdangerous h.1]

theorem obPreOperation_desiredAccess (ctx : Context) (information : PreOperation) :
    (obPreOperation ctx information).information.desiredAccess =
      if Dangerous ctx information.object ∧ information.kernelHandle then
        information.desiredAccess &&& ~~~information.object.stripMask
      else information.desiredAccess := by
  unfold obPreOperation
  cases information.object with
  | process pid => exact checkTarget_desiredAccess ctx true pid information rfl rfl
  | thread owner => exact checkTarget_desiredAccess ctx false owner information rfl rfl
  | other => simp [Dangerous, ObObject.targetPid]

/-- The callback leaves an operation with the access it should have exactly when the handle is a
kernel handle, is not dangerous, or asks for none of the stripped rights. -/
theorem obPreOperation_protects_iff (ctx : Context) (information : PreOperation) :
    Protects ctx information (obPreOperation ctx information).information ↔
      information.kernelHandle = true ∨ ¬ Dangerous ctx information.object ∨
        information.desiredAccess &&& information.object.stripMask = 0 := by
  rw [Protects, obPreOperation_desiredAccess]
  by_cases hdangerous : Dangerous ctx information.object
  · cases hkernel : information.kernelHandle with
    | true => simp [hdangerous]
    | false =>
      rw [← and_not_eq_self_iff]
      simp [hdangerous, eq_comm]
  · simp [hdangerous]

/-- Pid 500 opens a protected process with full access. -/
theorem user_handle_keeps_access :
    ¬ Protects
      ⟨⟨[⟨100, 7⟩], by decide, by decide⟩, 500, true, fun _ => 0⟩
      ⟨.handleCreate, false, .process 100, Memory.zeroed.write32 0 0x1FFFFF⟩
      (obPreOperation ⟨⟨[⟨100, 7⟩], by decide, by decide⟩, 500, true, fun _ => 0⟩
        ⟨.handleCreate, false, .process 100, Memory.zeroed.write32 0 0x1FFFFF⟩).information := by
  intro h
  have hstripped := h.1 (by decide)
  revert hstripped
  decide

end SecOutfall.Protection
