import SecOutfall.Injection.Ledger
import SecOutfall.Notify.Callbacks

/-! What the callbacks track, with and without a record to emit.

Tracking has an abstract machine of its own: the notifications, without records. The callbacks
simulate it where a record is allocated. Where it is not, a creation and a thread return in front
of the tracking, which is the abstract step only if that has nothing to track. -/
namespace SecOutfall.Notify
open Injection Protection Runs
set_option autoImplicit false

/-! ## The abstract machine -/

/-- Of a ledger entry: membership, create time and initial thread. -/
structure LedgerRow where
  pid : UInt32
  createTime : UInt64
  initialThread : Option ℕ
  deriving DecidableEq, Repr

def ledgerRow (entry : InjectionEntry) : LedgerRow := ⟨entry.pid, entry.createTime, entry.initialThread⟩

/-- The tracked state, and the policies that say what is tracked. -/
structure Tracked where
  identities : IdentityTable
  ledger : List LedgerRow
  protectedTable : ProtectedTable
  policy : Policy
  protectedNames : List (List UInt16)

def System.tracked (s : System) : Tracked :=
  ⟨s.identities, s.engine.ledger.map ledgerRow, s.protectedTable, s.engine.policy, s.protectedNames⟩

def noteThread (pid : UInt32) (thread : ℕ) : List LedgerRow → List LedgerRow
  | [] => []
  | row :: rest =>
    if row.pid == pid then
      (if row.initialThread.isNone then { row with initialThread := some thread } else row) :: rest
    else row :: noteThread pid thread rest

section
variable (upcase : UInt16 → UInt16)

def Tracked.wants (v : Tracked) (pid : UInt32) (image : Option (List UInt16)) : Bool :=
  injectionWantsProcess upcase (Injection.init v.policy) pid image

def Tracked.step (v : Tracked) : Notification → Tracked
  | .processCreated pid info time _ pool =>
    let image := imageUnits info.imageFileName
    { v with
      identities := (v.identities.insert pid time pool.identity).1
      ledger :=
        if v.wants upcase pid image && pool.ledger && !(v.ledger.any fun row => row.pid == pid) then
          v.ledger ++ [⟨pid, time, none⟩]
        else v.ledger
      protectedTable :=
        protectionOnProcessCreate upcase v.protectedNames v.protectedTable pid time image pool.table }
  | .processExited pid _ _ =>
    { v with
      identities := v.identities.remove pid
      ledger := v.ledger.eraseP fun row => row.pid == pid
      protectedTable := protectionOnProcessExit v.protectedTable pid }
  | .thread pid _ create found _ _ =>
    match create, found with
    | true, some thread => { v with ledger := noteThread pid thread v.ledger }
    | _, _ => v
  | .attempt .. => v
  | .fixup .. => v

end

/-! ## Nothing to track -/

section
variable (upcase : UInt16 → UInt16) (s : System) (pid : UInt32)

/-- The identity table is full, has the pid, or gets no memory. -/
def identityRefuses (allocated : Bool) : Bool :=
  s.identities.count ≥ IdentityTable.maxEntries || (s.identities.lookupLocked pid).isSome || !allocated

/-- The engine does not want the process, has the pid, or gets no memory. -/
def ledgerRefuses (image : Option (List UInt16)) (allocated : Bool) : Bool :=
  !injectionWantsProcess upcase s.engine pid image || (findEntry s.engine.ledger pid).isSome || !allocated

/-- The image is not protected, or the protected table has the pid, is full or gets no memory. -/
def tableRefuses (image : Option (List UInt16)) (allocated : Bool) : Bool :=
  !image.any (ProtectedNames.covers upcase s.protectedNames) || s.protectedTable.contains pid ||
    s.protectedTable.entries.length ≥ ProtectedTable.maxEntries || !allocated

/-- No ledger entry of the pid waits for its initial thread. -/
def threadIrrelevant : Bool := (findEntry s.engine.ledger pid).all fun entry => entry.initialThread.isSome

end

/-- A notification whose record is lost is a creation that every table refuses, an exit, or a
thread that the engine has no use for. -/
def LossHarmless (upcase : UInt16 → UInt16) (s : System) : Notification → Prop
  | .processCreated pid info _ _ pool => pool.record = true ∨
      identityRefuses s pid pool.identity ∧
      ledgerRefuses upcase s pid (imageUnits info.imageFileName) pool.ledger ∧
      tableRefuses upcase s pid (imageUnits info.imageFileName) pool.table
  | .processExited .. => True
  | .thread pid _ create found _ allocated =>
      allocated = true ∨ create = false ∨ found = none ∨ threadIrrelevant s pid
  | .attempt .. => True
  | .fixup .. => True

/-! ## When a table stays as it is -/

theorem IdentityTable.insert_eq_self {table : IdentityTable} {pid : UInt32} {createTime : UInt64}
    {allocated : Bool} :
    (table.insert pid createTime allocated).1 = table ↔
      table.count ≥ maxEntries ∨ (table.lookupLocked pid).isSome ∨ allocated = false := by
  unfold insert
  by_cases hroom : table.count ≥ maxEntries
  · rw [dif_pos hroom]
    exact iff_of_true rfl (.inl hroom)
  · rw [dif_neg hroom]
    by_cases hknown : (table.lookupLocked pid).isSome
    · rw [dif_pos hknown]
      exact iff_of_true rfl (.inr (.inl hknown))
    · rw [dif_neg hknown]
      cases allocated with
      | false => exact iff_of_true rfl (.inr (.inr rfl))
      | true =>
        have hchanged : table.link pid createTime (Nat.lt_of_not_ge hroom) (by simpa using hknown) ≠ table := by
          intro heq
          have hcount : table.count + 1 = table.count := congrArg IdentityTable.count heq
          omega
        simp [hroom, hknown, hchanged]

theorem protectionOnProcessCreate_eq_self (upcase : UInt16 → UInt16) {names : List (List UInt16)}
    {table : ProtectedTable} {pid : UInt32} {createTime : UInt64} {image : Option (List UInt16)}
    {allocated : Bool} :
    protectionOnProcessCreate upcase names table pid createTime image allocated = table ↔
      image.any (ProtectedNames.covers upcase names) = false ∨ table.contains pid ∨
        table.entries.length ≥ ProtectedTable.maxEntries ∨ allocated = false := by
  cases image with
  | none => simp [protectionOnProcessCreate]
  | some name =>
    rw [protectionOnProcessCreate, Option.any_some]
    by_cases hcovers : ProtectedNames.covers upcase names name = true
    · rw [if_pos hcovers, hcovers, ProtectedTable.add]
      by_cases hrefused : table.contains pid = true ∨ table.entries.length ≥ ProtectedTable.maxEntries
      · rw [dif_pos hrefused]
        simp only [Bool.true_eq_false, false_or, true_iff]
        exact hrefused.elim Or.inl fun hfull => .inr (.inl hfull)
      · rw [dif_neg hrefused]
        cases allocated with
        | false => simp
        | true =>
          have hchanged : table.entries ++ [(⟨pid, createTime⟩ : Entry)] ≠ table.entries := by
            intro heq
            have hlength := congrArg List.length heq
            rw [List.length_append, List.length_singleton] at hlength
            omega
          refine iff_of_false (fun heq => hchanged (congrArg ProtectedTable.entries heq)) ?_
          simpa using hrefused
    · rw [if_neg hcovers]
      simp [hcovers]

theorem noteThread_eq_self {pid : UInt32} {thread : ℕ} {rows : List LedgerRow} :
    noteThread pid thread rows = rows ↔
      (rows.find? fun row => row.pid == pid).all fun row => row.initialThread.isSome := by
  induction rows with
  | nil => simp [noteThread]
  | cons row rest ih =>
    rw [noteThread]
    by_cases hpid : row.pid == pid
    · rw [if_pos hpid, List.find?_cons, hpid, Option.all_some]
      cases hthread : row.initialThread with
      | none =>
        have hne : ({ row with initialThread := some thread } : LedgerRow) ≠ row := by
          intro heq
          have := congrArg LedgerRow.initialThread heq
          simp [hthread] at this
        simp [hne]
      | some known => simp
    · rw [if_neg hpid, List.find?_cons, Bool.eq_false_iff.mpr hpid, List.cons.injEq]
      simp only [true_and]
      exact ih

/-! ## The ledger and its rows -/

theorem find?_ledgerRow (ledger : List InjectionEntry) (pid : UInt32) :
    (ledger.map ledgerRow).find? (fun row => row.pid == pid) = (findEntry ledger pid).map ledgerRow := by
  rw [List.find?_map]
  rfl

theorem updateEntry_seeThread (pid : UInt32) (thread : ℕ) (ledger : List InjectionEntry) :
    (updateEntry pid (seeThread thread) ledger).map ledgerRow = noteThread pid thread (ledger.map ledgerRow) := by
  induction ledger with
  | nil => rfl
  | cons entry rest ih =>
    rw [updateEntry, List.map_cons, noteThread]
    by_cases hpid : entry.pid == pid
    · have hsee : ledgerRow (seeThread thread entry) =
          if (ledgerRow entry).initialThread.isNone then
            { ledgerRow entry with initialThread := some thread } else ledgerRow entry := by
        unfold seeThread casState ledgerRow
        split_ifs <;> rfl
      rw [if_pos hpid, if_pos (show ((ledgerRow entry).pid == pid) = true from hpid), List.map_cons, hsee]
    · rw [if_neg hpid, if_neg (show ¬ ((ledgerRow entry).pid == pid) = true from hpid), List.map_cons, ih]

theorem tryInjectLocked_policy (s : Engine) (pid : UInt32) :
    (tryInjectLocked s pid).policy = s.policy := by
  obtain heq | ⟨entry, thread, path, -, -, heq⟩ := tryInjectLocked_cases s pid
  · rw [heq]
  · rw [heq]

theorem onFirstThread_tracked (s : Engine) (pid : UInt32) (thread : ℕ) :
    (onFirstThread s pid thread).ledger.map ledgerRow = noteThread pid thread (s.ledger.map ledgerRow) ∧
      (onFirstThread s pid thread).policy = s.policy := by
  unfold onFirstThread
  split
  · rename_i hnone
    refine ⟨?_, rfl⟩
    rw [← updateEntry_seeThread, updateEntry_of_none hnone]
  · rw [tryInjectLocked_map fun _ _ => rfl, tryInjectLocked_policy]
    exact ⟨updateEntry_seeThread pid thread s.ledger, rfl⟩

theorem any_ledgerRow (ledger : List InjectionEntry) (pid : UInt32) :
    ((ledger.map ledgerRow).any fun row => row.pid == pid) = (findEntry ledger pid).isSome := by
  rw [findEntry, List.isSome_find?, List.any_map]
  rfl

theorem onProcessCreate_tracked (upcase : UInt16 → UInt16) (s : Engine) (pid : UInt32) (createTime : UInt64)
    (image : Option (List UInt16)) (tick : UInt64) (allocated : Bool) :
    (onProcessCreate upcase s pid createTime image tick allocated).ledger.map ledgerRow =
        (if injectionWantsProcess upcase s pid image && allocated && !(findEntry s.ledger pid).isSome then
          s.ledger.map ledgerRow ++ [⟨pid, createTime, none⟩]
        else s.ledger.map ledgerRow) ∧
      (onProcessCreate upcase s pid createTime image tick allocated).policy = s.policy := by
  unfold onProcessCreate
  cases injectionWantsProcess upcase s pid image with
  | false => exact ⟨rfl, rfl⟩
  | true =>
    cases allocated with
    | false => exact ⟨rfl, rfl⟩
    | true =>
      cases hfind : findEntry s.ledger pid with
      | some entry => simp [hfind]
      | none => simp [hfind, ledgerRow]

theorem fixup_policy (s : Engine) (k : ℕ) : (Injection.fixup s k).policy = s.policy := by
  unfold Injection.fixup
  split
  · rfl
  · split
    · rfl
    · simp only
      split
      · rfl
      · split <;> rfl

theorem runAttempt_policy (s : Engine) (k : ℕ) (lookupOk queueOk : Bool) :
    (runAttempt s k lookupOk queueOk).policy = s.policy := by
  obtain ⟨heq, -⟩ | ⟨attempt, -, -, ⟨result, -, heq⟩ | ⟨rva, heq⟩⟩ :=
    runAttempt_cases s k lookupOk queueOk
  · rw [heq]
  · rw [heq]
  · rw [heq]

/-! ## The callbacks and the abstract step -/

theorem insertIdentity_tracked (s : System) (pid : UInt32) (createTime : UInt64) (allocated : Bool) :
    (s.insertIdentity pid createTime allocated).tracked =
      { s.tracked with identities := (s.identities.insert pid createTime allocated).1 } := by
  unfold System.insertIdentity
  simp only
  split <;> rfl

theorem insertIdentity_engine (s : System) (pid : UInt32) (createTime : UInt64) (allocated : Bool) :
    (s.insertIdentity pid createTime allocated).engine = s.engine := by
  unfold System.insertIdentity
  simp only
  split <;> rfl

section
variable (upcase : UInt16 → UInt16) (s : System) (pid : UInt32) (info : CreateInfo) (time tick : UInt64)

/-- A creation with its record is the abstract step. -/
theorem created_tracked {pool : Pool} (hrecord : pool.record = true) :
    (onProcessNotifyCreate upcase s pid info time tick pool).tracked =
      s.tracked.step upcase (.processCreated pid info time tick pool) := by
  have hidentity := insertIdentity_tracked s pid time pool.identity
  simp only [System.tracked, Tracked.mk.injEq] at hidentity
  obtain ⟨hidentities, -, htable, -, hnames⟩ := hidentity
  obtain ⟨hledger, hpolicy⟩ := onProcessCreate_tracked upcase s.engine pid time
    (imageUnits info.imageFileName) tick pool.ledger
  unfold onProcessNotifyCreate
  rw [hrecord, Bool.not_true, if_neg Bool.false_ne_true]
  simp only [System.tracked, System.pushRecord, Tracked.step, Tracked.wants, any_ledgerRow,
    insertIdentity_engine, hidentities, htable, hnames, hledger, hpolicy]
  rfl

/-- The abstract creation tracks nothing exactly if every table refuses it. -/
theorem created_eq_self (pool : Pool) :
    s.tracked.step upcase (.processCreated pid info time tick pool) = s.tracked ↔
      identityRefuses s pid pool.identity ∧
      ledgerRefuses upcase s pid (imageUnits info.imageFileName) pool.ledger ∧
      tableRefuses upcase s pid (imageUnits info.imageFileName) pool.table := by
  have hwants : s.tracked.wants upcase pid (imageUnits info.imageFileName) =
      injectionWantsProcess upcase s.engine pid (imageUnits info.imageFileName) := rfl
  have hledger : ∀ (c : Bool) (rows : List LedgerRow) (row : LedgerRow),
      (if c then rows ++ [row] else rows) = rows ↔ c = false := by
    intro c rows row
    cases c <;> simp
  rw [Tracked.step, hwants, show s.tracked.ledger = s.engine.ledger.map ledgerRow from rfl, any_ledgerRow]
  simp only [System.tracked, Tracked.mk.injEq, IdentityTable.insert_eq_self, hledger,
    protectionOnProcessCreate_eq_self, and_true]
  refine and_congr ?_ (and_congr ?_ ?_)
  · simp only [identityRefuses, Bool.or_eq_true, decide_eq_true_eq, Bool.not_eq_true', or_assoc]
  · simp only [ledgerRefuses, Bool.or_eq_true, Bool.and_eq_false_iff, Bool.not_eq_true', Bool.not_eq_false']
    exact or_right_comm
  · simp only [tableRefuses, Bool.or_eq_true, decide_eq_true_eq, Bool.not_eq_true', or_assoc]

end

theorem exited_tracked (upcase : UInt16 → UInt16) (s : System) (pid : UInt32) (time : UInt64) (allocated : Bool) :
    (onProcessNotifyExit s pid time allocated).tracked =
      s.tracked.step upcase (.processExited pid time allocated) := by
  have hunlink : (unlinkEntry s.engine.ledger pid).map ledgerRow =
      (s.engine.ledger.map ledgerRow).eraseP fun row => row.pid == pid := by
    rw [List.eraseP_map]
    rfl
  unfold onProcessNotifyExit
  simp only [Tracked.step, System.tracked]
  rw [← hunlink]
  split_ifs <;> rfl

theorem thread_tracked (upcase : UInt16 → UInt16) (s : System) (pid threadId : UInt32) (create : Bool)
    (found : Option ℕ) (time : UInt64) :
    (onThreadNotify s pid threadId create found time true).tracked =
      s.tracked.step upcase (.thread pid threadId create found time true) := by
  cases create with
  | false => rfl
  | true =>
    cases found with
    | none => rfl
    | some thread =>
      obtain ⟨hledger, hpolicy⟩ := onFirstThread_tracked s.engine pid thread
      simp only [onThreadNotify, Bool.not_true, Bool.false_eq_true, if_false, if_true, System.tracked,
        System.pushRecord, Tracked.step, hledger, hpolicy]

theorem thread_eq_self (upcase : UInt16 → UInt16) (s : System) (pid threadId : UInt32) (create : Bool)
    (found : Option ℕ) (time : UInt64) (allocated : Bool) :
    s.tracked.step upcase (.thread pid threadId create found time allocated) = s.tracked ↔
      create = false ∨ found = none ∨ threadIrrelevant s pid := by
  cases create with
  | false => exact iff_of_true rfl (.inl rfl)
  | true =>
    cases found with
    | none => exact iff_of_true rfl (.inr (.inl rfl))
    | some thread =>
      rw [Tracked.step, System.tracked, Tracked.mk.injEq]
      simp only [true_and, and_true, noteThread_eq_self, find?_ledgerRow, Option.all_map, threadIrrelevant,
        Bool.true_eq_false, reduceCtorEq, false_or]
      rfl

theorem step_tracked_iff (upcase : UInt16 → UInt16) (s : System) (op : Notification) :
    LossHarmless upcase s op ↔ (step upcase s op).tracked = s.tracked.step upcase op := by
  cases op with
  | processCreated pid info time tick pool =>
    cases hrecord : pool.record with
    | true => exact iff_of_true (.inl hrecord) (created_tracked upcase s pid info time tick hrecord)
    | false =>
      have hlost : (step upcase s (.processCreated pid info time tick pool)).tracked = s.tracked := by
        rw [step, onProcessNotifyCreate, hrecord]
        rfl
      rw [hlost, eq_comm (a := s.tracked), created_eq_self, LossHarmless, hrecord]
      simp
  | processExited pid time allocated => exact iff_of_true trivial (exited_tracked upcase s pid time allocated)
  | thread pid threadId create found time allocated =>
    cases allocated with
    | true => exact iff_of_true (.inl rfl) (thread_tracked upcase s pid threadId create found time)
    | false =>
      have hlost : (step upcase s (.thread pid threadId create found time false)).tracked = s.tracked := rfl
      rw [hlost, eq_comm (a := s.tracked), thread_eq_self, LossHarmless]
      simp
  | attempt k lookupOk queueOk =>
    refine iff_of_true trivial ?_
    simp only [step, System.tracked, Tracked.step, runAttempt_ledger, runAttempt_policy]
  | fixup k =>
    refine iff_of_true trivial ?_
    simp only [step, System.tracked, Tracked.step, fixup_map (g := ledgerRow) (fun _ _ => rfl), fixup_policy]

/-! ## Runs -/

/-- The identity tables, the ledgers as far as they are tracked, and the protected tables agree. -/
def SameState (s t : System) : Prop :=
  s.identities = t.identities ∧ s.engine.ledger.map ledgerRow = t.engine.ledger.map ledgerRow ∧
    s.protectedTable = t.protectedTable

theorem step_tracked_cases (upcase : UInt16 → UInt16) (s : System) (op : Notification) :
    (step upcase s op).tracked = s.tracked.step upcase op ∨ (step upcase s op).tracked = s.tracked := by
  by_cases hharmless : LossHarmless upcase s op
  · exact .inl ((step_tracked_iff upcase s op).mp hharmless)
  · cases op with
    | processCreated pid info time tick pool =>
      have hlost : pool.record = false := Bool.eq_false_iff.mpr fun h => hharmless (.inl h)
      refine .inr ?_
      rw [step, onProcessNotifyCreate, hlost]
      rfl
    | thread pid threadId create found time allocated =>
      obtain rfl : allocated = false := Bool.eq_false_iff.mpr fun h => hharmless (.inl h)
      exact .inr rfl
    | processExited | attempt | fixup => exact absurd trivial hharmless

theorem Tracked.step_policies (upcase : UInt16 → UInt16) (v : Tracked) (op : Notification) :
    (v.step upcase op).policy = v.policy ∧ (v.step upcase op).protectedNames = v.protectedNames := by
  cases op with
  | thread pid threadId create found =>
    unfold Tracked.step
    simp only
    split
    · exact ⟨rfl, rfl⟩
    · exact ⟨rfl, rfl⟩
  | processCreated | processExited | attempt | fixup => exact ⟨rfl, rfl⟩

theorem run_policies (upcase : UInt16 → UInt16) (s : System) (ops : List Notification) :
    (run (step upcase) s ops).tracked.policy = s.tracked.policy ∧
      (run (step upcase) s ops).tracked.protectedNames = s.tracked.protectedNames := by
  refine run_invariant (I := fun t : System => t.tracked.policy = s.tracked.policy ∧
    t.tracked.protectedNames = s.tracked.protectedNames) ?_ ⟨rfl, rfl⟩ ops
  rintro t op ⟨hpolicy, hnames⟩
  obtain heq | heq := step_tracked_cases upcase t op
  · obtain ⟨hpolicy', hnames'⟩ := t.tracked.step_policies upcase op
    rw [heq]
    exact ⟨hpolicy'.trans hpolicy, hnames'.trans hnames⟩
  · rw [heq]
    exact ⟨hpolicy, hnames⟩

theorem sameState_iff {s t : System} (hpolicy : s.tracked.policy = t.tracked.policy)
    (hnames : s.tracked.protectedNames = t.tracked.protectedNames) :
    SameState s t ↔ s.tracked = t.tracked := by
  constructor
  · rintro ⟨hidentities, hledger, htable⟩
    rw [System.tracked, System.tracked, Tracked.mk.injEq]
    exact ⟨hidentities, hledger, htable, hpolicy, hnames⟩
  · intro heq
    exact ⟨congrArg Tracked.identities heq, congrArg Tracked.ledger heq, congrArg Tracked.protectedTable heq⟩

theorem Tracked.step_recorded (upcase : UInt16 → UInt16) (v : Tracked) (op : Notification) :
    v.step upcase op.recorded = v.step upcase op := by
  cases op <;> rfl

theorem lossHarmless_recorded (upcase : UInt16 → UInt16) (s : System) (op : Notification) :
    LossHarmless upcase s op.recorded := by
  cases op with
  | processCreated | thread => exact .inl rfl
  | processExited | attempt | fixup => trivial

/-- With every record allocated the callbacks are the abstract machine. -/
theorem run_recorded (upcase : UInt16 → UInt16) (s : System) (ops : List Notification) :
    (run (step upcase) s (ops.map Notification.recorded)).tracked =
      run (Tracked.step upcase) s.tracked ops := by
  induction ops generalizing s with
  | nil => rfl
  | cons op ops ih =>
    rw [List.map_cons, run_cons, run_cons, ih,
      (step_tracked_iff upcase s op.recorded).mp (lossHarmless_recorded upcase s op), Tracked.step_recorded]

/-- Lost records lose no state, at any point of a run, exactly if each is lost by a notification
that has nothing to track. -/
theorem run_tracks_iff (upcase : UInt16 → UInt16) (s : System) (ops : List Notification) :
    (∀ before after, ops = before ++ after →
      SameState (run (step upcase) s before)
        (run (step upcase) s (before.map Notification.recorded))) ↔
      Along (step upcase) (LossHarmless upcase) s ops := by
  rw [along_iff_simulates (step_tracked_iff upcase)]
  refine forall_congr' fun before => forall_congr' fun after => imp_congr_right fun _ => ?_
  obtain ⟨hpolicy, hnames⟩ := run_policies upcase s before
  obtain ⟨hpolicy', hnames'⟩ := run_policies upcase s (before.map Notification.recorded)
  rw [sameState_iff (hpolicy.trans hpolicy'.symm) (hnames.trans hnames'.symm), run_recorded]

/-- One creation without memory for its record: no identity, no ledger entry, no protection. -/
theorem lost_creation_untracked :
    let image : Wire.UnicodeString := ⟨Utf16.bytesOf (Control.wide "\\agent.exe"), by decide⟩
    let s := System.init ⟨true, none, ⟨false, []⟩⟩ [Control.wide "agent.exe"]
    let op := Notification.processCreated 8 ⟨4, none, some image⟩ 700 1 ⟨false, true, true, true⟩
    let lost := run (step id) s [op]
    let kept := run (step id) s ([op].map Notification.recorded)
    ¬ SameState lost kept ∧
      (lost.identities.lookup 8, lost.engine.ledger.map ledgerRow, lost.protectedTable.contains 8) =
        (0, [], false) ∧
      (kept.identities.lookup 8, kept.engine.ledger.map ledgerRow, kept.protectedTable.contains 8) =
        (700, [⟨8, 700, none⟩], true) := by
  intro image s op lost kept
  have hlost : (lost.identities.lookup 8, lost.engine.ledger.map ledgerRow, lost.protectedTable.contains 8) =
      (0, [], false) := by decide +kernel
  have hkept : (kept.identities.lookup 8, kept.engine.ledger.map ledgerRow, kept.protectedTable.contains 8) =
      (700, [⟨8, 700, none⟩], true) := by decide +kernel
  refine ⟨fun hsame => ?_, hlost, hkept⟩
  have hidentity : (0 : UInt64) = 700 := calc
    (0 : UInt64) = lost.identities.lookup 8 := (congrArg Prod.fst hlost).symm
    _ = kept.identities.lookup 8 := by rw [hsame.1]
    _ = 700 := congrArg Prod.fst hkept
  exact absurd hidentity (by decide)

end SecOutfall.Notify
