import Mathlib.Data.List.Induction
import SecOutfall.Foundations.PoolList
import SecOutfall.Foundations.Runs
import SecOutfall.Injection.Ledger

/-! The injection ledger over its `LIST_ENTRY` chain: search, insertion and unlinking against the list that stands
for it elsewhere, and the teardown in `InjectionCleanup`.

A step is one region under the ledger lock. -/
namespace SecOutfall.Injection
open ListEntry PoolList Runs
set_option autoImplicit false

/-! ## Operations -/

/-- A creation with the block it allocated, assignments to the entry found, and an exit. -/
inductive LedgerOp where
  | create (address : ℕ) (entry : InjectionEntry)
  | update (pid : UInt32) (f : InjectionEntry → InjectionEntry)
  | exit (pid : UInt32)

def ledgerStep (ledger : List InjectionEntry) : LedgerOp → List InjectionEntry
  | .create _ entry =>
    match findEntry ledger entry.pid with
    | some _ => ledger
    | none => ledger ++ [entry]
  | .update pid f => updateEntry pid f ledger
  | .exit pid => unlinkEntry ledger pid

/-- The same list with the addresses of its blocks. -/
def placedStep (placed : List (ℕ × InjectionEntry)) : LedgerOp → List (ℕ × InjectionEntry)
  | .create address entry =>
    match findEntry (placed.map (·.2)) entry.pid with
    | some _ => placed
    | none => placed ++ [(address, entry)]
  | .update pid f => updateFirst (·.pid) pid f placed
  | .exit pid => placed.eraseP fun x => x.2.pid = pid

/-- A new block is at an address that no linked block has. -/
def LedgerOp.Fresh (head : ℕ) (placed : List (ℕ × InjectionEntry)) : LedgerOp → Prop
  | .create address _ => address ∉ head :: placed.map (·.1)
  | _ => True

instance decidableFresh (head : ℕ) (placed : List (ℕ × InjectionEntry)) (op : LedgerOp) :
    Decidable (op.Fresh head placed) := by
  cases op <;> unfold LedgerOp.Fresh <;> infer_instance

/-! ## The chain -/

/-- A creation frees its block again where the pid has an entry already; an exit frees what it unlinked. -/
def linkedLedgerStep (s : LinkedTable InjectionEntry) : LedgerOp → Option (LinkedTable InjectionEntry)
  | .create address entry =>
    let s := s.alloc address entry
    match s.find (·.pid) entry.pid with
    | some _ => some (s.free address)
    | none => s.insertTail address
  | .update pid f => some (s.update (·.pid) pid f)
  | .exit pid =>
    match s.unlink (·.pid) pid with
    | none => none
    | some (none, s) => some s
    | some (some address, s) => some (s.free address)

/-- The local head `dead` takes the chain over, the ledger's own head is made empty, and what `dead` has is
destroyed entry by entry. -/
def injectionCleanup (s : LinkedTable InjectionEntry) (dead rounds : ℕ) :
    Option (LinkedTable InjectionEntry × List ℕ) :=
  let links := s.links.initializeListHead dead
  let links := links.appendTailList dead s.head
  let links := links.initializeListHead s.head
  LinkedTable.clear rounds { s with links, head := dead, count := 0 }

/-! ## The list behind the chain -/

theorem findFirst_map (pid : UInt32) (placed : List (ℕ × InjectionEntry)) :
    (findFirst (·.pid) pid placed).map (·.2) = findEntry (placed.map (·.2)) pid := by
  induction placed with
  | nil => rfl
  | cons x rest ih =>
    rw [findFirst, findEntry] at ih ⊢
    rw [List.map_cons, List.find?_cons, List.find?_cons]
    by_cases hpid : x.2.pid = pid
    · rw [decide_eq_true hpid, beq_iff_eq.mpr hpid]
      rfl
    · rw [decide_eq_false hpid, beq_false_of_ne hpid]
      exact ih

theorem updateFirst_map (pid : UInt32) (f : InjectionEntry → InjectionEntry) (placed : List (ℕ × InjectionEntry)) :
    (updateFirst (·.pid) pid f placed).map (·.2) = updateEntry pid f (placed.map (·.2)) := by
  induction placed with
  | nil => rfl
  | cons x rest ih =>
    rw [updateFirst, List.map_cons, updateEntry]
    by_cases hpid : x.2.pid = pid
    · simp [hpid]
    · rw [if_neg hpid, List.map_cons, ih, if_neg (by simpa using hpid)]

theorem placedStep_map (placed : List (ℕ × InjectionEntry)) (op : LedgerOp) :
    (placedStep placed op).map (·.2) = ledgerStep (placed.map (·.2)) op := by
  cases op with
  | create address entry =>
    rw [placedStep, ledgerStep]
    cases findEntry (placed.map (·.2)) entry.pid with
    | none => rw [List.map_append]; rfl
    | some found => rfl
  | update pid f => exact updateFirst_map pid f placed
  | exit pid =>
    rw [placedStep, ledgerStep, unlinkEntry, List.eraseP_map]
    rfl

theorem placedRun_map (placed : List (ℕ × InjectionEntry)) (ops : List LedgerOp) :
    (run placedStep placed ops).map (·.2) = run ledgerStep (placed.map (·.2)) ops := by
  induction ops generalizing placed with
  | nil => rfl
  | cons op ops ih => rw [run_cons, run_cons, ih, placedStep_map]

theorem linkedLedgerStep_represents {s : LinkedTable InjectionEntry} {placed : List (ℕ × InjectionEntry)}
    (h : Represents s placed) {op : LedgerOp} (hfresh : op.Fresh s.head placed) :
    ∃ s', linkedLedgerStep s op = some s' ∧ Represents s' (placedStep placed op) ∧ s'.head = s.head := by
  cases op with
  | create address entry =>
    have hoff : address ∉ placed.map (·.1) := fun hmem => hfresh (List.mem_cons_of_mem _ hmem)
    have halloc := h.alloc hoff entry
    rw [linkedLedgerStep, placedStep, ← findFirst_map, halloc.find]
    cases hfind : findFirst (·.pid) entry.pid placed with
    | some found => exact ⟨_, rfl, halloc.free hoff, rfl⟩
    | none =>
      have hblock : Function.update s.blocks address (some entry) address = some entry := Function.update_self ..
      obtain ⟨s', hinsert, hrep, hhead, -⟩ := halloc.insertTail hfresh hblock
      exact ⟨s', hinsert, hrep, hhead⟩
  | update pid f => exact ⟨_, rfl, (h.update pid f).1, (h.update pid f).2⟩
  | exit pid =>
    obtain ⟨s', hunlink, hrep, hhead, -⟩ := @Represents.unlink _ _ _ s placed (fun entry => entry.pid) h pid
    rw [linkedLedgerStep, hunlink, placedStep]
    cases hfind : findFirst (fun entry : InjectionEntry => entry.pid) pid placed with
    | none => exact ⟨s', rfl, hrep, hhead⟩
    | some found =>
      -- the block found is the one that went
      have hoff : found.1 ∉ (placed.eraseP fun x => x.2.pid = pid).map (·.1) := by
        obtain ⟨hpid, before, after, hplaced, hbefore⟩ := List.find?_eq_some_iff_append.mp hfind
        have hnodup := (List.nodup_cons.mp h.ring.nodup).2
        rw [hplaced, List.map_append, List.map_cons, List.nodup_append, List.nodup_cons] at hnodup
        rw [hplaced, List.eraseP_append_right _ (by simpa using hbefore), List.eraseP_cons, hpid, cond_true,
          List.map_append, List.mem_append, not_or]
        exact ⟨fun hmem => hnodup.2.2 _ hmem _ List.mem_cons_self rfl, hnodup.2.1.1⟩
      exact ⟨s'.free found.1, rfl, hrep.free hoff, hhead⟩

theorem linkedLedger_run {s : LinkedTable InjectionEntry} {placed : List (ℕ × InjectionEntry)}
    (h : Represents s placed) {ops : List LedgerOp}
    (hfresh : Along placedStep (fun placed op => op.Fresh s.head placed) placed ops) :
    ∃ s', ops.foldlM linkedLedgerStep s = some s' ∧ Represents s' (run placedStep placed ops) ∧ s'.head = s.head := by
  induction ops generalizing s placed with
  | nil => exact ⟨s, rfl, h, rfl⟩
  | cons op ops ih =>
    obtain ⟨s', hstep, hrep, hhead⟩ := linkedLedgerStep_represents h hfresh.1
    rw [← hhead] at hfresh
    obtain ⟨s'', hrun, hrep', hhead'⟩ := ih hrep hfresh.2
    exact ⟨s'', by rw [List.foldlM_cons, hstep]; exact hrun, hrep', hhead'.trans hhead⟩

/-- As long as no block in the ledger is handed out a second time, the chain is the ledger's list after every run
of creations, updates and exits: no routine trips over the links, and the blocks in use at the linked addresses are
the entries in order. -/
theorem linked_ledger_refines (links : Links ℕ) (blocks : ℕ → Option InjectionEntry) (head : ℕ) (ops : List LedgerOp)
    (hfresh : Along placedStep (fun placed op => op.Fresh head placed) [] ops) :
    ∃ s, ops.foldlM linkedLedgerStep (LinkedTable.new links blocks head) = some s ∧
      Represents s (run placedStep [] ops) ∧ (run placedStep [] ops).map (·.2) = run ledgerStep [] ops := by
  obtain ⟨s, hrun, hrep, -⟩ := linkedLedger_run (represents_new links blocks head) hfresh
  exact ⟨s, hrun, hrep, placedRun_map [] ops⟩

/-- Two processes, one of which starts twice, and the exit of the first. -/
def fourCalls : List LedgerOp :=
  let entry (pid : UInt32) : InjectionEntry := ⟨pid, 1, 1, none, 0, .pendingThread, none, none, 0, 0⟩
  [.create 1 (entry 484), .create 2 (entry 488), .create 3 (entry 484), .exit 484]

theorem linked_ledger_unlinks :
    ∃ s, fourCalls.foldlM linkedLedgerStep (LinkedTable.new ⟨id, id⟩ (fun _ => none) 0) = some s ∧
      Represents s [(2, ⟨488, 1, 1, none, 0, .pendingThread, none, none, 0, 0⟩)] := by
  obtain ⟨s, hrun, hrep, -⟩ := linked_ledger_refines ⟨id, id⟩ (fun _ => none) 0 fourCalls (by decide)
  have hplaced : run placedStep [] fourCalls = [(2, ⟨488, 1, 1, none, 0, .pendingThread, none, none, 0, 0⟩)] := by
    decide
  exact ⟨s, hrun, hplaced ▸ hrep⟩

/-! ## The callbacks -/

/-- What a callback did to the ledger, with the block it may have allocated at `address`. -/
def Performs (address : ℕ) (before after : List InjectionEntry) : Prop :=
  ∃ ops, after = run ledgerStep before ops ∧ ∀ (head : ℕ) (placed : List (ℕ × InjectionEntry)),
    address ∉ head :: placed.map (·.1) → Along placedStep (fun placed op => op.Fresh head placed) placed ops

theorem Performs.nothing (address : ℕ) (ledger : List InjectionEntry) : Performs address ledger ledger :=
  ⟨[], rfl, fun _ _ _ => trivial⟩

theorem Performs.update (address : ℕ) (ledger : List InjectionEntry) (pid : UInt32)
    (f : InjectionEntry → InjectionEntry) : Performs address ledger (updateEntry pid f ledger) :=
  ⟨[.update pid f], rfl, fun _ _ _ => ⟨trivial, trivial⟩⟩

theorem Performs.updates (address : ℕ) (ledger : List InjectionEntry) (pid : UInt32)
    (f g : InjectionEntry → InjectionEntry) :
    Performs address ledger (updateEntry pid g (updateEntry pid f ledger)) :=
  ⟨[.update pid f, .update pid g], rfl, fun _ _ _ => ⟨trivial, trivial, trivial⟩⟩

theorem tryInjectLocked_ledger (s : Engine) (pid : UInt32) :
    (tryInjectLocked s pid).ledger = s.ledger ∨
      ∃ f, (tryInjectLocked s pid).ledger = updateEntry pid f s.ledger := by
  unfold tryInjectLocked
  cases findEntry s.ledger pid with
  | none => exact .inl rfl
  | some entry =>
    dsimp only
    split
    · split
      · exact .inl rfl
      · split
        · exact .inl rfl
        · exact .inr ⟨_, rfl⟩
    · exact .inl rfl

theorem updateThenInject_performs (address : ℕ) (s : Engine) (pid : UInt32) (f : InjectionEntry → InjectionEntry) :
    Performs address s.ledger (tryInjectLocked { s with ledger := updateEntry pid f s.ledger } pid).ledger := by
  obtain hsame | ⟨g, hinjected⟩ := tryInjectLocked_ledger { s with ledger := updateEntry pid f s.ledger } pid
  · rw [hsame]
    exact .update address s.ledger pid f
  · rw [hinjected]
    exact .updates address s.ledger pid f g

theorem onProcessCreate_performs (upcase : UInt16 → UInt16) (address : ℕ) (s : Engine) (pid : UInt32)
    (createTime : UInt64) (imageFileName : Option (List UInt16)) (tick : UInt64) (allocated : Bool) :
    Performs address s.ledger (onProcessCreate upcase s pid createTime imageFileName tick allocated).ledger := by
  unfold onProcessCreate
  split
  · exact .nothing address s.ledger
  · dsimp only
    split
    · exact .nothing address s.ledger
    · cases hfind : findEntry s.ledger pid with
      | some found => exact .nothing address s.ledger
      | none =>
        let entry : InjectionEntry :=
          ⟨pid, createTime, mintNonce tick pid (s.nonceCounter + 1), none, 0, .pendingThread, none, none, 0, 0⟩
        refine ⟨[.create address entry], ?_, fun _ _ hfresh => ⟨hfresh, trivial⟩⟩
        show s.ledger ++ [entry] = match findEntry s.ledger pid with
          | some _ => s.ledger
          | none => s.ledger ++ [entry]
        rw [hfind]

theorem fixup_performs (address : ℕ) (s : Engine) (k : ℕ) : Performs address s.ledger (fixup s k).ledger := by
  unfold fixup
  split
  · exact .nothing address s.ledger
  · dsimp only
    split
    · exact .nothing address s.ledger
    · split
      · exact .nothing address s.ledger
      · split
        · exact .nothing address s.ledger
        · exact .update address s.ledger _ _
        · exact .update address s.ledger _ _

theorem step_performs (upcase : UInt16 → UInt16) (address : ℕ) (s : Engine) (op : Op) :
    Performs address s.ledger (step upcase s op).ledger := by
  cases op with
  | setPolicy policy => exact .nothing address s.ledger
  | processCreate pid createTime name tick allocated =>
    exact onProcessCreate_performs upcase address s pid createTime name tick allocated
  | firstThread pid thread =>
    show Performs address s.ledger (onFirstThread s pid thread).ledger
    unfold onFirstThread
    split
    · exact .nothing address s.ledger
    · exact updateThenInject_performs address s pid (seeThread thread)
  | resolve name resolved =>
    show Performs address s.ledger (resolveLdrLoadDll upcase s name resolved).ledger
    unfold resolveLdrLoadDll
    split
    · exact .nothing address s.ledger
    · exact .nothing address s.ledger
  | imageLoad pid base name =>
    show Performs address s.ledger (onImageLoad s pid base name).ledger
    unfold onImageLoad
    dsimp only
    split
    · exact .nothing address s.ledger
    · exact updateThenInject_performs address { s with loads := s.loads ++ [⟨pid, s.exits pid, base, name⟩] } pid
        (seeImage base)
  | attempt k lookupOk queueOk =>
    show Performs address s.ledger (runAttempt s k lookupOk queueOk).ledger
    rw [runAttempt_ledger]
    exact .nothing address s.ledger
  | fixup k => exact fixup_performs address s k
  | processExit pid => exact ⟨[.exit pid], rfl, fun _ _ _ => ⟨trivial, trivial⟩⟩

/-! ## Teardown -/

/-- `AppendTailList` takes a first entry and is given the ledger's head, which then is the first entry of the list
to destroy, and has just been made to point at itself. -/
theorem injectionCleanup_fatal {s : LinkedTable InjectionEntry} {placed : List (ℕ × InjectionEntry)}
    (h : Represents s placed) {dead : ℕ} (hdead : dead ∉ s.head :: placed.map (·.1)) (rounds : ℕ) :
    injectionCleanup s dead (rounds + 1) = none := by
  have hhead : s.head ≠ dead := fun heq => hdead (heq ▸ List.mem_cons_self)
  have hledger : Ring (s.links.initializeListHead dead) s.head (placed.map (·.1)) := by
    refine h.ring.frame (fun entry hentry => ?_) (fun entry hentry => ?_)
    · exact Function.update_of_ne (fun heq : entry = dead => hdead (heq ▸ hentry)) _ _
    · exact Function.update_of_ne (fun heq : entry = dead => hdead (heq ▸ hentry)) _ _
  have happended : Ring ((s.links.initializeListHead dead).appendTailList dead s.head) dead
      (s.head :: placed.map (·.1)) :=
    (ring_initializeListHead s.links dead).appendTailList hledger (List.nodup_cons.mpr ⟨hdead, h.ring.nodup⟩)
  have hfirst : (((s.links.initializeListHead dead).appendTailList dead s.head).initializeListHead s.head).flink dead =
      s.head :=
    (Function.update_of_ne (Ne.symm hhead) _ _).trans (List.isChain_cons_cons.mp happended.chain).1.1
  have hself : (((s.links.initializeListHead dead).appendTailList dead s.head).initializeListHead s.head).blink
      s.head = s.head := Function.update_self ..
  rw [injectionCleanup, LinkedTable.clear, Links.isListEmpty, hfirst, if_neg (by simpa using hhead), Links.removeHeadList, hfirst, hself,
    if_pos (Or.inl hhead)]

/-- The ledger that the engine reached, over a chain with its blocks at the addresses of `placed`. -/
structure Holds (s : Engine) (start chain : LinkedTable InjectionEntry) (placed : List (ℕ × InjectionEntry)) :
    Prop where
  reached : ∃ ops, ops.foldlM linkedLedgerStep start = some chain ∧ placed = run placedStep [] ops
  represents : Represents chain placed
  ledger : placed.map (·.2) = s.ledger
  head : chain.head = start.head

theorem exists_fresh (used : List ℕ) : ∃ address, address ∉ used := by
  have hle : ∀ address ∈ used, address ≤ used.foldr max 0 := by
    induction used with
    | nil => exact fun address haddress => absurd haddress List.not_mem_nil
    | cons first rest ih =>
      rw [List.forall_mem_cons, List.foldr_cons]
      exact ⟨Nat.le_max_left _ _, fun address haddress => (ih address haddress).trans (Nat.le_max_right _ _)⟩
  exact ⟨used.foldr max 0 + 1, fun hmem => absurd (hle _ hmem) (by omega)⟩

theorem Holds.step {s : Engine} {start chain : LinkedTable InjectionEntry} {placed : List (ℕ × InjectionEntry)}
    (h : Holds s start chain placed) (upcase : UInt16 → UInt16) (op : Op) :
    ∃ chain' placed', Holds (Injection.step upcase s op) start chain' placed' := by
  obtain ⟨ops, hrun, hplaced⟩ := h.reached
  obtain ⟨address, haddress⟩ := exists_fresh (chain.head :: placed.map (·.1))
  obtain ⟨more, hmore, hfresh⟩ := step_performs upcase address s op
  obtain ⟨chain', hrun', hrep', hhead'⟩ := linkedLedger_run h.represents (hfresh chain.head placed haddress)
  refine ⟨chain', run placedStep placed more, ⟨ops ++ more, ?_, ?_⟩, hrep', ?_, hhead'.trans h.head⟩
  · rw [List.foldlM_append, hrun]
    exact hrun'
  · rw [run_append, hplaced]
  · rw [placedRun_map, h.ledger, hmore]

theorem holds_run (upcase : UInt16 → UInt16) (policy : Policy) (ops : List Op) (start : LinkedTable InjectionEntry)
    (hstart : Represents start []) :
    ∃ chain placed, Holds (run (step upcase) (init policy) ops) start chain placed := by
  induction ops using List.reverseRecOn with
  | nil => exact ⟨start, [], ⟨[], rfl, rfl⟩, hstart, rfl, rfl⟩
  | append_singleton ops op ih =>
    obtain ⟨chain, placed, hholds⟩ := ih
    rw [run_append]
    exact hholds.step upcase op

/-- Whatever the callbacks did, a chain holds the engine's ledger; and whichever blocks the pool handed out for it,
and wherever the local head of `InjectionCleanup` lies, the teardown stops at the first entry it takes off: no entry
is destroyed, and the unload that called it does not go on. -/
theorem cleanup_destroys_nothing (upcase : UInt16 → UInt16) (policy : Policy) (ops : List Op) (links : Links ℕ)
    (blocks : ℕ → Option InjectionEntry) (head : ℕ) :
    (∃ chain placed,
      Holds (run (step upcase) (init policy) ops) (LinkedTable.new links blocks head) chain placed) ∧
    ∀ chain placed, Holds (run (step upcase) (init policy) ops) (LinkedTable.new links blocks head) chain placed →
      ∀ dead, dead ∉ head :: placed.map (·.1) → ∀ rounds, injectionCleanup chain dead (rounds + 1) = none := by
  refine ⟨holds_run upcase policy ops _ (represents_new links blocks head), fun chain placed hholds dead hdead => ?_⟩
  have hhead : chain.head = head := hholds.head
  exact injectionCleanup_fatal hholds.represents (hhead.symm ▸ hdead)

end SecOutfall.Injection
