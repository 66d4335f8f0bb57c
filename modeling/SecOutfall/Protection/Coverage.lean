import SecOutfall.Control.Policies
import SecOutfall.Foundations.AssocList
import SecOutfall.Foundations.Runs
import SecOutfall.Protection.Table

/-! Who is protected, over runs of policy pushes and process notifications
(`ProtectionOnProcessCreate`, `ProtectionOnProcessExit`; `driver/secoutfall/Protection.cpp`).

A name policy decides when a process is created; the table it is entered into then lives on until
the process exits. SET_PROTECTED replaces the names and leaves the table alone, also where it
disables protection. -/
namespace SecOutfall.Protection
open Control CLayout Runs
set_option autoImplicit false

/-! ## State and steps -/

/-- A process between its notifications; `matched` says what the policy said at its creation. -/
structure LiveProcess where
  pid : UInt32
  createTime : UInt64
  matched : Bool
  deriving DecidableEq, Repr

def LiveProcess.entry (process : LiveProcess) : Entry := ⟨process.pid, process.createTime⟩

structure Guard where
  policies : Policies
  table : ProtectedTable
  -- history
  live : List LiveProcess

def Guard.init : Guard := ⟨noPolicies, ProtectedTable.init, []⟩

section
variable (upcase : UInt16 → UInt16)

def protectionOnProcessCreate (names : List (List UInt16)) (table : ProtectedTable) (pid : UInt32)
    (createTime : UInt64) (imageFileName : Option (List UInt16)) (allocated : Bool) : ProtectedTable :=
  match imageFileName with
  | none => table
  | some name =>
    if ProtectedNames.covers upcase names name then (table.add pid createTime allocated).1 else table

def protectionOnProcessExit (table : ProtectedTable) (pid : UInt32) : ProtectedTable := table.remove pid

inductive GuardStep where
  | push (input : List UInt8)
  | create (pid : UInt32) (createTime : UInt64) (imageFileName : Option (List UInt16))
  | exit (pid : UInt32)
  deriving DecidableEq, Repr

/-- The policy in force matches the image. -/
def Guard.wants (s : Guard) (imageFileName : Option (List UInt16)) : Bool :=
  imageFileName.any (ProtectedNames.covers upcase s.policies.protectedNames)

def Guard.step (s : Guard) : GuardStep → Guard
  | .push input => { s with policies := (setProtected s.policies input fun _ => true).2 }
  | .create pid createTime image =>
    { s with
      table := protectionOnProcessCreate upcase s.policies.protectedNames s.table pid createTime image true
      live := s.live ++ [⟨pid, createTime, s.wants upcase image⟩] }
  | .exit pid =>
    { s with
      table := protectionOnProcessExit s.table pid
      live := s.live.filter fun process => process.pid ≠ pid }

/-! ## Conditions -/

/-- The live processes that were created under a policy that matched them. -/
def Guard.matched (s : Guard) : List LiveProcess := s.live.filter LiveProcess.matched

/-- A pid belongs to one live process at a time, and there are at most 128 matches. -/
def Plausible (s : Guard) : GuardStep → Prop
  | .create pid _ image => pid ∉ s.live.map LiveProcess.pid ∧ (s.wants upcase image → s.matched.length < 128)
  | _ => True

/-- An accepted push with Enabled=FALSE. -/
def disarms (input : List UInt8) : Bool :=
  let header := sizeof ProtectionPolicy.fields
  let namesBytes := readUlong input ProtectionPolicy.namesBytes
  header ≤ input.length ∧ readUchar input ProtectionPolicy.enabled = 0 ∧ namesBytes ≤ 4096 ∧
    namesBytes % 2 = 0 ∧ input.length = header + namesBytes

/-- Protection is disabled only while nothing is protected. -/
def NothingProtected (s : Guard) : GuardStep → Prop
  | .push input => disarms input → s.matched = []
  | _ => True

end

/-! ## The table -/

theorem add_entries {table : ProtectedTable} {pid : UInt32} {createTime : UInt64}
    (hnew : table.contains pid = false) (hroom : table.entries.length < 128) :
    (table.add pid createTime true).1.entries = table.entries ++ [⟨pid, createTime⟩] := by
  have hadd : ¬ (table.contains pid = true ∨ table.entries.length ≥ ProtectedTable.maxEntries) := by
    rw [hnew, ProtectedTable.maxEntries]
    simp only [Bool.false_eq_true, false_or]
    omega
  simp only [ProtectedTable.add, dif_neg hadd, if_true]

theorem setProtected_of_disarms {input : List UInt8} (h : disarms input = true) (s : Policies)
    (alloc : ℕ → Bool) : setProtected s input alloc = (.success, { s with protectedNames := [] }) := by
  obtain ⟨hheader, hoff, hcap, heven, hlength⟩ := of_decide_eq_true h
  rw [ProtectionPolicy.sizeof_eq] at hheader hlength
  unfold setProtected
  simp only [ProtectionPolicy.sizeof_eq, hoff]
  rw [if_neg (by omega), if_neg (by omega)]
  rfl

theorem protectionSetPolicy_ne_nil {units : List UInt16} {alloc : ℕ → Bool} {names : List (List UInt16)}
    (h : protectionSetPolicy true units alloc = some names) : names ≠ [] := by
  simp only [protectionSetPolicy, Bool.not_true, Bool.false_eq_true, if_false] at h
  split_ifs at h with hcount hmemory hkept
  rw [← Option.some.inj h]
  intro hnil
  rw [hnil] at hkept
  simp only [not_or] at hcount
  exact hcount.1 (not_not.mp hkept).symm

/-- A push is refused, disables, or installs at least one name. -/
theorem setProtected_cases (s : Policies) (input : List UInt8) (alloc : ℕ → Bool) :
    (setProtected s input alloc).2 = s ∨ disarms input = true ∨
      (setProtected s input alloc).2.protectedNames ≠ [] := by
  by_cases hdisarms : disarms input = true
  · exact .inr (.inl hdisarms)
  · simp only [disarms, decide_eq_true_eq, not_and] at hdisarms
    unfold setProtected
    simp only
    split_ifs with hheader hchecks
    · exact .inl rfl
    · exact .inl rfl
    · have hon : readUchar input ProtectionPolicy.enabled ≠ 0 := by
        intro hoff
        exact hdisarms (by omega) hoff (by omega) (by omega) (by omega)
      split
      · exact .inl rfl
      · rename_i names hpolicy
        rw [decide_eq_true hon] at hpolicy
        exact .inr (.inr (protectionSetPolicy_ne_nil hpolicy))

/-! ## Runs -/

structure Covered (s : Guard) : Prop where
  distinct : (s.live.map LiveProcess.pid).Nodup
  table : s.table.entries = s.matched.map LiveProcess.entry
  disarmed : s.policies.protectedNames = [] → s.table.entries = []

section
variable {upcase : UInt16 → UInt16} {s : Guard}

theorem Covered.push (h : Covered s) {input : List UInt8} (hnone : NothingProtected s (.push input)) :
    Covered (s.step upcase (.push input)) := by
  refine ⟨h.distinct, h.table, ?_⟩
  intro hnames
  rcases setProtected_cases s.policies input fun _ => true with hsame | hdisarms | hinstalled
  · apply h.disarmed
    rw [← hsame]
    exact hnames
  · have hmatched : s.matched = [] := hnone hdisarms
    show s.table.entries = []
    rw [h.table, hmatched]
    rfl
  · exact absurd hnames hinstalled

theorem Covered.not_contains (h : Covered s) {pid : UInt32} (hnew : pid ∉ s.live.map LiveProcess.pid) :
    s.table.contains pid = false := by
  rw [ProtectedTable.contains_eq_false, h.table, List.map_map]
  intro hmem
  obtain ⟨process, hprocess, rfl⟩ := List.mem_map.mp hmem
  exact hnew (List.mem_map_of_mem (List.mem_filter.mp hprocess).1)

theorem Covered.create (h : Covered s) {pid : UInt32} {createTime : UInt64}
    {image : Option (List UInt16)} (hdomain : Plausible upcase s (.create pid createTime image)) :
    Covered (s.step upcase (.create pid createTime image)) := by
  obtain ⟨hnew, hroom⟩ := hdomain
  have htable : (protectionOnProcessCreate upcase s.policies.protectedNames s.table pid createTime image
      true).entries = if s.wants upcase image then s.table.entries ++ [⟨pid, createTime⟩]
        else s.table.entries := by
    cases image with
    | none => rfl
    | some name =>
      have hcovers : s.wants upcase (some name) =
        ProtectedNames.covers upcase s.policies.protectedNames name := rfl
      rw [protectionOnProcessCreate, hcovers]
      by_cases hwants : ProtectedNames.covers upcase s.policies.protectedNames name = true
      · simp only [hwants, if_true]
        apply add_entries (h.not_contains hnew)
        rw [h.table, List.length_map]
        exact hroom hwants
      · simp only [hwants, if_false, Bool.false_eq_true]
  refine ⟨?_, ?_, ?_⟩
  · simp only [Guard.step, List.map_append, List.map_singleton]
    rw [List.nodup_append_comm, List.singleton_append, List.nodup_cons]
    exact ⟨hnew, h.distinct⟩
  · simp only [Guard.step, Guard.matched, List.filter_append, List.map_append]
    rw [htable, h.table]
    cases hwants : s.wants upcase image with
    | true => rfl
    | false => simp [Guard.matched]
  · intro hnames
    have hnames' : s.policies.protectedNames = [] := hnames
    have hwants : s.wants upcase image = false := by
      cases image with
      | none => rfl
      | some name => simp [Guard.wants, hnames', ProtectedNames.covers]
    simp only [Guard.step]
    rw [htable, hwants]
    exact h.disarmed hnames'

theorem Covered.exit (h : Covered s) (pid : UInt32) : Covered (s.step upcase (.exit pid)) := by
  have htable : (s.table.remove pid).entries = s.table.entries.filter fun entry => entry.pid ≠ pid :=
    AssocList.eraseP_eq_filter s.table.distinct pid
  refine ⟨?_, ?_, ?_⟩
  · exact h.distinct.sublist (List.filter_sublist.map _)
  · simp only [Guard.step, protectionOnProcessExit, Guard.matched]
    rw [htable, h.table, List.filter_map, List.filter_filter, Guard.matched, List.filter_filter]
    congr 1
    apply List.filter_congr
    intro process _
    exact Bool.and_comm _ _
  · intro hnames
    simp only [Guard.step, protectionOnProcessExit]
    rw [htable, h.disarmed hnames]
    rfl

theorem Covered.step {op : GuardStep} (h : Covered s) (hdomain : Plausible upcase s op)
    (hnone : NothingProtected s op) : Covered (s.step upcase op) := by
  cases op with
  | push input => exact h.push hnone
  | create pid createTime image => exact h.create hdomain
  | exit pid => exact h.exit pid

theorem init_covered : Covered Guard.init := ⟨List.nodup_nil, rfl, fun _ => rfl⟩

end

/-- Along runs that disable protection only while nothing is protected, the table holds exactly the
live processes created under a policy that matched them, and none while protection is disabled. -/
theorem run_table_exact (upcase : UInt16 → UInt16) (ops : List GuardStep)
    (h : Along (Guard.step upcase) (fun s op => Plausible upcase s op ∧ NothingProtected s op)
      Guard.init ops) :
    (run (Guard.step upcase) Guard.init ops).table.entries =
        (run (Guard.step upcase) Guard.init ops).matched.map LiveProcess.entry ∧
      (∀ before input, ops = before ++ [.push input] → disarms input = true →
        (run (Guard.step upcase) Guard.init ops).policies.protectedNames = []) ∧
      ((run (Guard.step upcase) Guard.init ops).policies.protectedNames = [] →
        ∀ pid, (run (Guard.step upcase) Guard.init ops).table.contains pid = false) := by
  have hcovered : Covered (run (Guard.step upcase) Guard.init ops) :=
    h.invariant (fun _ _ hs hop => hs.step hop.1 hop.2) init_covered
  refine ⟨hcovered.table, ?_, ?_⟩
  · rintro before input rfl hdisarms
    rw [run_append, run_cons, run_nil]
    simp only [Guard.step, setProtected_of_disarms hdisarms]
  · intro hnames pid
    rw [ProtectedTable.contains_eq_false, hcovered.disarmed hnames]
    exact List.not_mem_nil

/-- Enabled with the name `a`. -/
def armingPush : List UInt8 := [1, 0, 0, 0, 6, 0, 0, 0, 97, 0, 0, 0, 0, 0]

def disarmingPush : List UInt8 := [0, 0, 0, 0, 0, 0, 0, 0]

/-- The protected process exits, then protection is disabled. -/
def exitThenDisarm : List GuardStep :=
  [.push armingPush, .create 5 1 (some [97]), .create 6 2 (some [98]), .exit 5, .push disarmingPush]

instance (upcase : UInt16 → UInt16) (s : Guard) (op : GuardStep) : Decidable (Plausible upcase s op) :=
  match op with
  | .create pid _ image => inferInstanceAs (Decidable
      (pid ∉ s.live.map LiveProcess.pid ∧ (s.wants upcase image → s.matched.length < 128)))
  | .push _ | .exit _ => isTrue trivial

instance (s : Guard) (op : GuardStep) : Decidable (NothingProtected s op) :=
  match op with
  | .push input => inferInstanceAs (Decidable (disarms input = true → s.matched = []))
  | .create _ _ _ | .exit _ => isTrue trivial

theorem exitThenDisarm_unprotects :
    (run (Guard.step id) Guard.init exitThenDisarm).table.contains 5 = false := by
  have h := run_table_exact id exitThenDisarm (by decide)
  exact h.2.2 (h.2.1 (exitThenDisarm.take 4) disarmingPush rfl (by decide)) 5

/-- A process that was protected when protection was disabled stays protected. -/
theorem disarmed_process_stays_protected :
    ¬ ∀ ops : List GuardStep, Along (Guard.step id) (Plausible id) Guard.init ops →
      ∀ before input, ops = before ++ [.push input] → disarms input = true →
        ∀ pid, (run (Guard.step id) Guard.init ops).table.contains pid = false := by
  intro h
  have hgone := h [.push armingPush, .create 5 1 (some [97]), .push disarmingPush] (by decide)
    [.push armingPush, .create 5 1 (some [97])] disarmingPush rfl (by decide) 5
  exact absurd hgone (by decide)

end SecOutfall.Protection
