import Mathlib.Data.List.Induction
import SecOutfall.Foundations.Runs
import SecOutfall.Notify.Callbacks
import SecOutfall.Notify.FileCallbacks

/-! The registry callback (`OnRegistryNotify`, `GetKeyPath`, `IsMachineKey`; `driver/secoutfall/secoutfall.cpp`), cut
where it gets the name of the key, writes its record and gives the name back. -/
namespace SecOutfall.Notify
open Control Delivery Injection Runs Wire
set_option autoImplicit false

/-! ## Keys -/

/-- A key's name as `CmCallbackGetKeyObjectIDEx` has it: whole WCHARs, as many as a UNICODE_STRING holds. -/
structure KeyName where
  units : List UInt16
  short : 2 * units.length < 2 ^ 16

def KeyName.unicodeString (name : KeyName) : UnicodeString :=
  ⟨Utf16.bytesOf name.units, by rw [Utf16.bytesOf_length]; exact name.short⟩

def machine : List UInt16 := wide "\\REGISTRY\\MACHINE"

section
variable (upcase : UInt16 → UInt16)

/-- `RtlPrefixUnicodeString` with `CaseInSensitive`. -/
def prefixUnicodeString (first name : List UInt16) : Bool :=
  first.length ≤ name.length && equalUnicodeString upcase (name.take first.length) first

def isMachineKey (name : List UInt16) : Bool :=
  if !prefixUnicodeString upcase machine name then false
  else
    match name[machine.length]? with
    | some next => next == 0x5C
    | none => true

end

/-! ## Callbacks -/

structure SetValueKeyInformation where
  /-- `none` is a null pointer, `some none` a string without a buffer. -/
  valueName : Option (Option UnicodeString)
  dataType : UInt32
  value : ValueData

/-- `REG_NOTIFY_CLASS`, with the `PreInformation` that is read. -/
inductive RegNotify where
  | postSetValueKey (preInfo : Option SetValueKeyInformation)
  | postCreateKeyEx
  | postDeleteKey
  | other

/-- A callback's arguments, and the process it runs in. -/
structure RegOperation where
  notify : RegNotify
  status : UInt32
  pid : UInt32

/-- Whether `GetKeyPath` is called. -/
def RegOperation.asksName (operation : RegOperation) : Bool :=
  match operation.notify with
  | .other => false
  | _ => ntSuccess operation.status

/-- The emitting routine called with the name, if any. -/
def RegOperation.emission (upcase : UInt16 → UInt16) (operation : RegOperation) (path : KeyName)
    (identity : UInt64) : Option Emission :=
  if !isMachineKey upcase path.units then none
  else
    match operation.notify with
    | .postSetValueKey none => none
    | .postSetValueKey (some info) =>
      match info.valueName, info.value.data with
      | some valueName, some _ =>
        some (.registrySetValue (some path.unicodeString) valueName info.dataType info.value operation.pid identity)
      | _, _ => none
    | .postCreateKeyEx => some (.registryKeyCreated (some path.unicodeString) operation.pid identity)
    | .postDeleteKey => some (.registryKeyDeleted (some path.unicodeString) operation.pid identity)
    | .other => none

inductive RegPhase where
  | named | emitted | returned
  deriving DecidableEq, Repr

/-- A callback with the reference to a name that it was handed, if any. -/
structure RegCallback where
  operation : RegOperation
  name : Option (ℕ × KeyName)
  phase : RegPhase

/-- A call of an emitting routine. -/
structure RegReport where
  callback : ℕ
  emission : Emission
  stamp : Stamp
  allocated : Bool

/-- The system with the registry callbacks that were entered so far. -/
structure Watcher where
  system : System
  handedOut : ℕ
  released : List ℕ
  callbacks : List RegCallback
  reports : List RegReport

namespace Watcher

def init (policy : Policy) (protectedNames : List (List UInt16)) : Watcher :=
  ⟨System.init policy protectedNames, 0, [], [], []⟩

/-- Up to the name; `path` is the answer of `GetKeyPath`. -/
def enter (s : Watcher) (operation : RegOperation) (path : Option KeyName) : Watcher :=
  match if operation.asksName then path else none with
  | none => { s with callbacks := s.callbacks ++ [⟨operation, none, .returned⟩] }
  | some path =>
    { s with
      handedOut := s.handedOut + 1
      callbacks := s.callbacks ++ [⟨operation, some (s.handedOut, path), .named⟩] }

def goto (s : Watcher) (k : ℕ) (callback : RegCallback) (phase : RegPhase) : Watcher :=
  { s with callbacks := s.callbacks.set k { callback with phase := phase } }

/-- `IsMachineKey` and the emitting routine. -/
def emit (upcase : UInt16 → UInt16) (s : Watcher) (k : ℕ) (time : UInt64) (allocated : Bool) : Watcher :=
  match s.callbacks[k]? with
  | some ⟨operation, some (name, path), .named⟩ =>
    let callback : RegCallback := ⟨operation, some (name, path), .named⟩
    match operation.emission upcase path (s.system.identities.lookup operation.pid) with
    | none => s.goto k callback .emitted
    | some emission =>
      { s.goto k callback .emitted with
        system :=
          if allocated then s.system.pushRecord (emission.record (s.system.stamp time)) else s.system.loseRecord
        reports := s.reports ++ [⟨k, emission, s.system.stamp time, allocated⟩] }
  | _ => s

/-- `CmCallbackReleaseKeyObjectIDEx`. -/
def release (s : Watcher) (k : ℕ) : Watcher :=
  match s.callbacks[k]? with
  | some ⟨operation, some (name, path), .emitted⟩ =>
    { s.goto k ⟨operation, some (name, path), .emitted⟩ .returned with released := s.released ++ [name] }
  | _ => s

end Watcher

/-- Registry callbacks on any threads, the process and thread callbacks, and the agent's requests. -/
inductive WatcherOp where
  | enter (operation : RegOperation) (path : Option KeyName)
  | emit (k : ℕ) (time : UInt64) (allocated : Bool)
  | release (k : ℕ)
  | notify (notification : Notification)
  | getData (request : GetData)

def watcherStep (upcase : UInt16 → UInt16) (s : Watcher) : WatcherOp → Watcher
  | .enter operation path => s.enter operation path
  | .emit k time allocated => s.emit upcase k time allocated
  | .release k => s.release k
  | .notify notification => { s with system := step upcase s.system notification }
  | .getData request => { s with system.driver := (Delivery.getData s.system.driver request).2 }

/-! ## What is observed -/

section
variable (upcase : UInt16 → UInt16)

/-- The root of the machine's hives in any case, or a key below it. -/
def UnderMachine (name : List UInt16) : Prop :=
  ∃ root below, name = root ++ below ∧ root.map upcase = machine.map upcase ∧
    (below = [] ∨ ∃ rest, below = 0x5C :: rest)

theorem isMachineKey_iff (name : List UInt16) : isMachineKey upcase name = true ↔ UnderMachine upcase name := by
  constructor
  · intro h
    unfold isMachineKey prefixUnicodeString equalUnicodeString at h
    split at h
    · cases h
    · rename_i hstarts
      rw [Bool.not_eq_true', Bool.not_eq_false, Bool.and_eq_true, decide_eq_true_eq, beq_iff_eq] at hstarts
      refine ⟨name.take machine.length, name.drop machine.length, (List.take_append_drop _ _).symm, hstarts.2, ?_⟩
      split at h
      · rename_i next hnext
        obtain ⟨hlength, hget⟩ := List.getElem?_eq_some_iff.mp hnext
        refine .inr ⟨name.drop (machine.length + 1), ?_⟩
        rw [List.drop_eq_getElem_cons hlength, hget, beq_iff_eq.mp h]
      · rename_i hnone
        exact .inl (List.drop_eq_nil_of_le (List.getElem?_eq_none_iff.mp hnone))
  · rintro ⟨root, below, rfl, hroot, hbelow⟩
    have hlength : root.length = machine.length := by
      have h := congrArg List.length hroot
      rwa [List.length_map, List.length_map] at h
    have hstarts : prefixUnicodeString upcase machine (root ++ below) = true := by
      unfold prefixUnicodeString equalUnicodeString
      rw [← hlength, List.take_left' rfl, hroot, beq_self_eq_true, Bool.and_true, decide_eq_true_eq,
        List.length_append]
      omega
    unfold isMachineKey
    rw [hstarts, ← hlength, List.getElem?_append_right le_rfl, Nat.sub_self]
    obtain rfl | ⟨rest, rfl⟩ := hbelow
    · rfl
    · rfl

/-- A notification of which there is something to tell. -/
def RegNotify.reported : RegNotify → Bool
  | .postSetValueKey none => false
  | .postSetValueKey (some info) => info.valueName.isSome && info.value.data.isSome
  | .postCreateKeyEx => true
  | .postDeleteKey => true
  | .other => false

/-- A successful operation on a key of the machine, whose name the system gave. -/
def RegCallback.Observed (callback : RegCallback) : Prop :=
  ntSuccess callback.operation.status = true ∧ callback.operation.notify.reported = true ∧
    ∃ name path, callback.name = some (name, path) ∧ UnderMachine upcase path.units

theorem emission_isSome (operation : RegOperation) (path : KeyName) (identity : UInt64) :
    (operation.emission upcase path identity).isSome = true ↔
      operation.notify.reported = true ∧ UnderMachine upcase path.units := by
  rw [← isMachineKey_iff]
  unfold RegOperation.emission RegNotify.reported
  cases isMachineKey upcase path.units with
  | false => simp
  | true =>
    cases operation.notify with
    | postSetValueKey preInfo =>
      cases preInfo with
      | none => simp
      | some info =>
        obtain ⟨valueName, dataType, value⟩ := info
        obtain ⟨data, dataLength, hlength⟩ := value
        cases valueName with
        | none => simp
        | some valueName =>
          cases data with
          | none => simp
          | some bytes => simp
    | postCreateKeyEx => simp
    | postDeleteKey => simp
    | other => simp

end

/-! ## A list with one element changed -/

section
variable {α β : Type} {l : List α} {k : ℕ} {x y : α}

/-- What the element stood for goes, and what its successor stands for comes. -/
theorem filterMap_set_perm (f : α → Option β) (h : l[k]? = some x) :
    ((l.set k y).filterMap f ++ (f x).toList).Perm (l.filterMap f ++ (f y).toList) := by
  have hcons : ∀ (a : α) (l : List α), (a :: l).filterMap f = (f a).toList ++ l.filterMap f := by
    intro a l
    rw [List.filterMap_cons]
    cases f a <;> rfl
  induction l generalizing k with
  | nil => cases h
  | cons a l ih =>
    cases k with
    | zero =>
      obtain rfl : a = x := Option.some.inj h
      rw [List.set_cons_zero, hcons, hcons]
      refine List.perm_append_comm.trans ?_
      rw [List.append_assoc]
      exact List.perm_append_comm.append_left _
    | succ k =>
      rw [List.set_cons_succ, hcons, hcons, List.append_assoc, List.append_assoc]
      exact (ih h).append_left _

theorem exists_set_iff {P : α → Prop} (h : l[k]? = some x) (hP : P y ↔ P x) (j : ℕ) :
    (∃ d, (l.set k y)[j]? = some d ∧ P d) ↔ ∃ d, l[j]? = some d ∧ P d := by
  by_cases hj : k = j
  · subst hj
    have hlength := (List.getElem?_eq_some_iff.mp h).1
    rw [List.getElem?_set_self hlength, h]
    simp only [Option.some.injEq, exists_eq_left', hP]
  · rw [List.getElem?_set_ne hj]

theorem exists_append_iff {P : α → Prop} (j : ℕ) :
    (∃ d, (l ++ [x])[j]? = some d ∧ P d) ↔ (∃ d, l[j]? = some d ∧ P d) ∨ (j = l.length ∧ P x) := by
  rcases Nat.lt_trichotomy j l.length with hlt | rfl | hgt
  · rw [List.getElem?_append_left hlt]
    have hne : j ≠ l.length := by omega
    simp [hne]
  · rw [List.getElem?_concat_length]
    simp
  · have hne : j ≠ l.length := by omega
    have hold : l[j]? = none := List.getElem?_eq_none_iff.mpr (by omega)
    have hnew : (l ++ [x])[j]? = none := List.getElem?_eq_none_iff.mpr (by simp; omega)
    simp [hold, hnew, hne]

end

/-! ## Steps -/

section
variable {upcase : UInt16 → UInt16} {s : Watcher}

theorem enter_cases (s : Watcher) (operation : RegOperation) (path : Option KeyName) :
    s.enter operation path = { s with callbacks := s.callbacks ++ [⟨operation, none, .returned⟩] } ∨
    ∃ name, operation.asksName = true ∧ s.enter operation path =
      { s with
        handedOut := s.handedOut + 1
        callbacks := s.callbacks ++ [⟨operation, some (s.handedOut, name), .named⟩] } := by
  unfold Watcher.enter
  cases hasks : operation.asksName with
  | false => exact .inl rfl
  | true =>
    cases path with
    | none => exact .inl rfl
    | some name => exact .inr ⟨name, rfl, rfl⟩

theorem emit_cases (upcase : UInt16 → UInt16) (s : Watcher) (k : ℕ) (time : UInt64) (allocated : Bool) :
    s.emit upcase k time allocated = s ∨
    ∃ operation name path, s.callbacks[k]? = some ⟨operation, some (name, path), .named⟩ ∧
      ((operation.emission upcase path (s.system.identities.lookup operation.pid) = none ∧
          s.emit upcase k time allocated = s.goto k ⟨operation, some (name, path), .named⟩ .emitted) ∨
        ∃ emission, operation.emission upcase path (s.system.identities.lookup operation.pid) = some emission ∧
          s.emit upcase k time allocated =
            { s.goto k ⟨operation, some (name, path), .named⟩ .emitted with
              system :=
                if allocated then s.system.pushRecord (emission.record (s.system.stamp time)) else s.system.loseRecord
              reports := s.reports ++ [⟨k, emission, s.system.stamp time, allocated⟩] }) := by
  unfold Watcher.emit
  split
  · rename_i operation name path hcallback
    refine .inr ⟨operation, name, path, hcallback, ?_⟩
    dsimp only
    split
    · rename_i hnone
      exact .inl ⟨hnone, rfl⟩
    · rename_i emission hsome
      exact .inr ⟨emission, hsome, rfl⟩
  · exact .inl rfl

theorem release_cases (s : Watcher) (k : ℕ) :
    s.release k = s ∨
    ∃ operation name path, s.callbacks[k]? = some ⟨operation, some (name, path), .emitted⟩ ∧
      s.release k =
        { s.goto k ⟨operation, some (name, path), .emitted⟩ .returned with released := s.released ++ [name] } := by
  unfold Watcher.release
  split
  · rename_i operation name path hcallback
    exact .inr ⟨operation, name, path, hcallback, rfl⟩
  · exact .inl rfl

/-! ## Names -/

/-- The reference a callback has to give back. -/
def RegCallback.held (callback : RegCallback) : Option ℕ :=
  if callback.phase = .returned then none else callback.name.map Prod.fst

def Watcher.held (s : Watcher) : List ℕ := s.callbacks.filterMap RegCallback.held

/-- Each name handed out is held by one callback or was given back, once. -/
def Watcher.Handed (s : Watcher) : Prop := (s.held ++ s.released).Perm (List.range s.handedOut)

theorem Watcher.Handed.step (h : s.Handed) (op : WatcherOp) : (watcherStep upcase s op).Handed := by
  cases op with
  | enter operation path =>
    obtain he | ⟨name, -, he⟩ := enter_cases s operation path
    · show (s.enter operation path).Handed
      rw [he, Handed, held, List.filterMap_append]
      exact (List.append_nil _).symm ▸ h
    · show (s.enter operation path).Handed
      rw [he, Handed, held, List.filterMap_append, List.range_succ]
      show (s.held ++ [s.handedOut] ++ s.released).Perm _
      rw [List.append_assoc]
      refine (List.perm_append_comm.append_left s.held).trans ?_
      rw [← List.append_assoc]
      exact h.append_right _
  | emit k time allocated =>
    -- a callback that goes on to write its record still holds its name
    have hsame : ∀ operation name path, s.callbacks[k]? = some ⟨operation, some (name, path), .named⟩ →
        ((s.callbacks.set k ⟨operation, some (name, path), .emitted⟩).filterMap RegCallback.held ++
          s.released).Perm (List.range s.handedOut) := by
      intro operation name path hcallback
      have hperm := filterMap_set_perm (y := ⟨operation, some (name, path), .emitted⟩) RegCallback.held hcallback
      exact (((List.perm_append_right_iff _).mp hperm).append_right _).trans h
    obtain he | ⟨operation, name, path, hcallback, ⟨-, he⟩ | ⟨emission, -, he⟩⟩ :=
      emit_cases upcase s k time allocated
    · show (s.emit upcase k time allocated).Handed
      rw [he]
      exact h
    · show (s.emit upcase k time allocated).Handed
      rw [he]
      exact hsame operation name path hcallback
    · show (s.emit upcase k time allocated).Handed
      rw [he]
      exact hsame operation name path hcallback
  | release k =>
    show (s.release k).Handed
    obtain he | ⟨operation, name, path, hcallback, he⟩ := release_cases s k
    · rw [he]
      exact h
    · rw [he]
      have hperm := filterMap_set_perm (y := ⟨operation, some (name, path), .returned⟩) RegCallback.held hcallback
      have hgone : ((s.callbacks.set k ⟨operation, some (name, path), .returned⟩).filterMap RegCallback.held ++
          [name]).Perm s.held := hperm.trans (List.append_nil _ ▸ List.Perm.refl _)
      show ((s.callbacks.set k ⟨operation, some (name, path), .returned⟩).filterMap RegCallback.held ++
        (s.released ++ [name])).Perm (List.range s.handedOut)
      refine (List.perm_append_comm.append_left _).trans ?_
      rw [← List.append_assoc]
      exact (hgone.append_right _).trans h
  | notify notification => exact h
  | getData request => exact h

/-! ## Reports -/

/-- Past its record. -/
def RegCallback.Settled (upcase : UInt16 → UInt16) (callback : RegCallback) : Prop :=
  callback.phase ≠ .named ∧ callback.Observed upcase

/-- The emission this callback makes of its arguments, with the identity of its process in the table. -/
def RegCallback.Tells (upcase : UInt16 → UInt16) (callback : RegCallback) (table : IdentityTable)
    (emission : Emission) : Prop :=
  ∃ name path, callback.name = some (name, path) ∧
    callback.operation.emission upcase path (table.lookup callback.operation.pid) = some emission

/-- Who has a name asked for it; the reports are one for each callback that observed something and is past its
record, and say what it observed, with the identity of a table that was there at its record. -/
structure Watcher.Reporting (upcase : UInt16 → UInt16) (known : ℕ → IdentityTable → Prop) (s : Watcher) : Prop where
  asked : ∀ callback ∈ s.callbacks, callback.name.isSome = true → callback.operation.asksName = true
  once : (s.reports.map RegReport.callback).Nodup
  settled : ∀ k, k ∈ s.reports.map RegReport.callback ↔ ∃ callback, s.callbacks[k]? = some callback ∧
    callback.Settled upcase
  tells : ∀ r ∈ s.reports, ∃ callback, s.callbacks[r.callback]? = some callback ∧
    ∃ table, known r.callback table ∧ callback.Tells upcase table r.emission

variable {known : ℕ → IdentityTable → Prop}

theorem asksName_success {operation : RegOperation} (h : operation.asksName = true) :
    ntSuccess operation.status = true := by
  unfold RegOperation.asksName at h
  split at h
  · cases h
  · exact h

/-- A callback's step behind its record changes nothing of what it observed. -/
theorem Watcher.Reporting.goto (h : s.Reporting upcase known) {k : ℕ} {operation : RegOperation}
    {name : Option (ℕ × KeyName)} {old new : RegPhase} (hcallback : s.callbacks[k]? = some ⟨operation, name, old⟩)
    (hsame : RegCallback.Settled upcase ⟨operation, name, new⟩ ↔ RegCallback.Settled upcase ⟨operation, name, old⟩)
    {s' : Watcher} (hreports : s'.reports = s.reports)
    (hcallbacks : s'.callbacks = s.callbacks.set k ⟨operation, name, new⟩) : s'.Reporting upcase known := by
  constructor
  · intro callback hmem hname
    rw [hcallbacks] at hmem
    obtain hold | rfl := List.mem_or_eq_of_mem_set hmem
    · exact h.asked callback hold hname
    · exact h.asked ⟨operation, name, old⟩ (List.mem_of_getElem? hcallback) hname
  · rw [hreports]
    exact h.once
  · intro j
    rw [hreports, hcallbacks, h.settled j]
    exact (exists_set_iff hcallback hsame j).symm
  · intro r hr
    rw [hcallbacks]
    rw [hreports] at hr
    exact (exists_set_iff (y := ⟨operation, name, new⟩) hcallback Iff.rfl r.callback).mpr (h.tells r hr)

theorem Watcher.Reporting.enter (h : s.Reporting upcase known) (operation : RegOperation) (path : Option KeyName) :
    (s.enter operation path).Reporting upcase known := by
  have hentered : ∀ callback : RegCallback, (callback.name.isSome = true → callback.operation.asksName = true) →
      ¬ callback.Settled upcase → ∀ s' : Watcher, s'.reports = s.reports →
      s'.callbacks = s.callbacks ++ [callback] → s'.Reporting upcase known := by
    intro callback hasked hopen s' hreports hcallbacks
    constructor
    · intro c hmem
      rw [hcallbacks, List.mem_append, List.mem_singleton] at hmem
      obtain hold | rfl := hmem
      · exact h.asked c hold
      · exact hasked
    · rw [hreports]
      exact h.once
    · intro j
      rw [hreports, hcallbacks, h.settled j, exists_append_iff]
      simp [hopen]
    · intro r hr
      rw [hreports] at hr
      rw [hcallbacks, exists_append_iff]
      exact .inl (h.tells r hr)
  obtain he | ⟨name, hasks, he⟩ := enter_cases s operation path
  · rw [he]
    refine hentered ⟨operation, none, .returned⟩ (fun hname => nomatch hname) ?_ _ rfl rfl
    rintro ⟨-, -, -, name, path, hname, -⟩
    cases hname
  · rw [he]
    refine hentered ⟨operation, some (s.handedOut, name), .named⟩ (fun _ => hasks) ?_ _ rfl rfl
    rintro ⟨hphase, -⟩
    exact hphase rfl

theorem Watcher.Reporting.emit (h : s.Reporting upcase known) {k : ℕ}
    (hknown : ∀ callback, s.callbacks[k]? = some callback → callback.phase = .named → known k s.system.identities)
    (time : UInt64) (allocated : Bool) : (s.emit upcase k time allocated).Reporting upcase known := by
  obtain he | ⟨operation, name, path, hcallback, hcases⟩ := emit_cases upcase s k time allocated
  · rw [he]
    exact h
  · have hasks : operation.asksName = true := h.asked _ (List.mem_of_getElem? hcallback) rfl
    have hopen : ¬ RegCallback.Settled upcase ⟨operation, some (name, path), .named⟩ := fun hsettled => hsettled.1 rfl
    have hobserved : RegCallback.Settled upcase ⟨operation, some (name, path), .emitted⟩ ↔
        (operation.emission upcase path (s.system.identities.lookup operation.pid)).isSome = true := by
      rw [emission_isSome]
      constructor
      · rintro ⟨-, -, hreported, name', path', hname, hunder⟩
        obtain ⟨-, rfl⟩ := Prod.mk.inj (Option.some.inj hname)
        exact ⟨hreported, hunder⟩
      · rintro ⟨hreported, hunder⟩
        exact ⟨nofun, asksName_success hasks, hreported, name, path, rfl, hunder⟩
    obtain ⟨hnone, he⟩ | ⟨emission, hsome, he⟩ := hcases
    · rw [he]
      refine h.goto hcallback ?_ rfl rfl
      rw [hobserved, hnone]
      exact iff_of_false Bool.false_ne_true hopen
    · rw [hsome] at hobserved
      have hfresh : k ∉ s.reports.map RegReport.callback := by
        rw [h.settled k]
        rintro ⟨callback, hk, hsettled⟩
        rw [hcallback] at hk
        exact hopen (Option.some.inj hk ▸ hsettled)
      rw [he]
      constructor
      · intro callback hmem hname
        obtain hold | rfl := List.mem_or_eq_of_mem_set hmem
        · exact h.asked callback hold hname
        · exact hasks
      · rw [List.map_append, List.nodup_append]
        refine ⟨h.once, List.nodup_singleton _, ?_⟩
        rintro a ha b hb rfl
        rw [List.map_singleton, List.mem_singleton] at hb
        subst hb
        exact hfresh ha
      · intro j
        rw [List.map_append, List.mem_append, List.map_singleton, List.mem_singleton, h.settled j]
        by_cases hj : j = k
        · subst hj
          have hlength := (List.getElem?_eq_some_iff.mp hcallback).1
          refine iff_of_true (.inr rfl) ⟨_, List.getElem?_set_self hlength, hobserved.mpr rfl⟩
        · show _ ↔ ∃ callback, (s.callbacks.set k _)[j]? = some callback ∧ _
          rw [List.getElem?_set_ne (Ne.symm hj)]
          exact or_iff_left hj
      · intro r hr
        rw [List.mem_append, List.mem_singleton] at hr
        obtain hold | rfl := hr
        · exact (exists_set_iff (y := ⟨operation, some (name, path), .emitted⟩) hcallback Iff.rfl r.callback).mpr
            (h.tells r hold)
        · have hlength := (List.getElem?_eq_some_iff.mp hcallback).1
          exact ⟨_, List.getElem?_set_self hlength, _, hknown _ hcallback rfl, name, path, rfl, hsome⟩

theorem Watcher.Reporting.step (h : s.Reporting upcase known) (op : WatcherOp)
    (hknown : ∀ k time allocated callback, op = .emit k time allocated → s.callbacks[k]? = some callback →
      callback.phase = .named → known k s.system.identities) : (watcherStep upcase s op).Reporting upcase known := by
  cases op with
  | enter operation path => exact h.enter operation path
  | emit k time allocated => exact h.emit (fun callback => hknown k time allocated callback rfl) time allocated
  | release k =>
    show (s.release k).Reporting upcase known
    obtain he | ⟨operation, name, path, hcallback, he⟩ := release_cases s k
    · rw [he]
      exact h
    · rw [he]
      refine h.goto hcallback ?_ rfl rfl
      exact and_congr_left fun _ => iff_of_true nofun nofun
  | notify notification => exact ⟨h.asked, h.once, h.settled, h.tells⟩
  | getData request => exact ⟨h.asked, h.once, h.settled, h.tells⟩

theorem Watcher.Reporting.mono (h : s.Reporting upcase known) {more : ℕ → IdentityTable → Prop}
    (hmore : ∀ k table, known k table → more k table) : s.Reporting upcase more := by
  refine ⟨h.asked, h.once, h.settled, ?_⟩
  intro r hr
  obtain ⟨callback, hcallback, table, htable, htells⟩ := h.tells r hr
  exact ⟨callback, hcallback, table, hmore _ table htable, htells⟩

/-- The table as the callback came to its record. -/
def TableAt (upcase : UInt16 → UInt16) (s : Watcher) (ops : List WatcherOp) (k : ℕ) (table : IdentityTable) : Prop :=
  ∃ before time allocated callback, before ++ [.emit k time allocated] <+: ops ∧
    (run (watcherStep upcase) s before).callbacks[k]? = some callback ∧ callback.phase = .named ∧
    table = (run (watcherStep upcase) s before).system.identities

theorem init_reporting (policy : Policy) (protectedNames : List (List UInt16)) (ops : List WatcherOp) :
    (run (watcherStep upcase) (.init policy protectedNames) ops).Reporting upcase
      (TableAt upcase (.init policy protectedNames) ops) := by
  induction ops using List.reverseRecOn with
  | nil =>
    exact ⟨fun _ hmem => absurd hmem List.not_mem_nil, List.nodup_nil, fun k => by simp [run_nil, Watcher.init],
      fun _ hr => absurd hr List.not_mem_nil⟩
  | append_singleton ops op ih =>
    have hgrown : ∀ k table, TableAt upcase (.init policy protectedNames) ops k table →
        TableAt upcase (.init policy protectedNames) (ops ++ [op]) k table := by
      rintro k table ⟨before, time, allocated, callback, hbefore, hnamed⟩
      exact ⟨before, time, allocated, callback, hbefore.trans (List.prefix_append ops [op]), hnamed⟩
    rw [run_append, run_cons, run_nil]
    refine (ih.mono hgrown).step op ?_
    rintro k time allocated callback rfl hcallback hphase
    exact ⟨ops, time, allocated, callback, List.prefix_refl _, hcallback, hphase, rfl⟩

theorem init_handed (policy : Policy) (protectedNames : List (List UInt16)) (ops : List WatcherOp) :
    (run (watcherStep upcase) (.init policy protectedNames) ops).Handed :=
  run_invariant (I := Watcher.Handed) (fun _ op h => h.step op)
    (show Watcher.Handed (.init policy protectedNames) from List.Perm.refl []) ops

end

end SecOutfall.Notify
