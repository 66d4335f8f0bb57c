import SecOutfall.Foundations.Runs
import SecOutfall.Foundations.Utf16
import SecOutfall.Foundations.X64
import SecOutfall.Injection.NtdllBase

/-! The load APC (`QueueLoadLibraryApc`, `TryInjectSnapshot` in `driver/secoutfall/Injection.cpp`): the argument
block and the stub it lays into the target, and what the stub does there. -/
namespace SecOutfall.Injection
open Bytes Control Runs X64
set_option autoImplicit false

/-! ## The stub -/

def injectStubBytes : List UInt8 :=
  [0x48, 0x89, 0xC8, 0x31, 0xC9, 0x31, 0xD2,
   0x4C, 0x8B, 0x00, 0x4C, 0x8B, 0x48, 0x08,
   0x48, 0x8B, 0x40, 0x10, 0xFF, 0xE0]

/-- The listing in front of `InjectStubBytes`. -/
def injectStub : List Instr :=
  [.mov rax rcx, .xor32 rcx rcx, .xor32 rdx rdx, .load r8 rax 0, .load r9 rax 8, .load rax rax 0x10, .jmp rax]

theorem encodeAll_injectStub : encodeAll injectStub = injectStubBytes := by decide

/-! ## The argument block -/

def blockSize (dllPath : List UInt16) : ℕ := 0x40 + 2 * dllPath.length + 8

/-- The stores into the argument block at `base`; the three behind `ldrLoadDll` are a UNICODE_STRING. -/
def argumentWrites (base : ℕ) (ldrLoadDll : UInt64) (dllPath : List UInt16) : List Write :=
  [⟨base + 0x00, leBytes 8 (base + 0x18)⟩,
   ⟨base + 0x08, leBytes 8 (base + 0x28)⟩,
   ⟨base + 0x10, leBytes 8 ldrLoadDll.toNat⟩,
   ⟨base + 0x18, leBytes 2 (2 * dllPath.length)⟩,
   ⟨base + 0x1A, leBytes 2 (2 * dllPath.length + 2)⟩,
   ⟨base + 0x20, leBytes 8 (base + 0x30)⟩,
   ⟨base + 0x30, Utf16.bytesOf dllPath⟩,
   ⟨base + 0x28, leBytes 8 0⟩]

/-! ## Queueing -/

/-- What the calls answer: the two allocations, the pool and the APC queue. -/
structure QueueAnswers where
  block : Option ℕ
  stub : Option ℕ
  apcAllocated : Bool
  inserted : Bool

inductive Kapc where
  | unallocated
  | freed
  | queued (normalRoutine normalContext : ℕ)
  deriving DecidableEq, Repr

structure QueueResult where
  ok : Bool
  memory : Memory
  kapc : Kapc

def queueLoadLibraryApc (memory : Memory) (dllPath : List UInt16) (ntdllBase : UInt64) (ldrLoadDllRva : UInt32)
    (answers : QueueAnswers) : QueueResult :=
  match answers.block, answers.stub with
  | some block, some stub =>
    let memory := memory.writeAll
      (argumentWrites block (ntdllBase + ldrLoadDllRva.toUInt64) dllPath ++ [⟨stub, injectStubBytes⟩])
    if !answers.apcAllocated then ⟨false, memory, .unallocated⟩
    else if !answers.inserted then ⟨false, memory, .freed⟩
    else ⟨true, memory, .queued stub block⟩
  | _, _ => ⟨false, memory, .unallocated⟩

/-- A process with the two regions committed in it: zeroed, inside the address space and apart. -/
structure Target (dllPath : List UInt16) where
  memory : Memory
  block : ℕ
  stub : ℕ
  block_inside : block + blockSize dllPath < 2 ^ 64
  stub_inside : stub + injectStubBytes.length < 2 ^ 64
  apart : Apart (block, block + blockSize dllPath) (stub, stub + injectStubBytes.length)
  zeroed : ∀ i < blockSize dllPath, memory (block + i) = 0

def LoadApc.queueIn (apc : LoadApc) (target : Target apc.dllPath) : QueueResult :=
  queueLoadLibraryApc target.memory apc.dllPath apc.ntdllBase apc.ldrLoadDllRva
    ⟨some target.block, some target.stub, true, true⟩

/-- A thread at the normal routine of the APC, with both regions as the driver left them. -/
structure Delivered (apc : LoadApc) (target : Target apc.dllPath) (s : Cpu) : Prop where
  routine : s.rip = .ofNat target.stub
  context : s.gpr rcx = .ofNat target.block
  block_kept : s.memory.read target.block (blockSize apc.dllPath) =
    (apc.queueIn target).memory.read target.block (blockSize apc.dllPath)
  stub_kept : s.memory.read target.stub injectStubBytes.length =
    (apc.queueIn target).memory.read target.stub injectStubBytes.length
  readable : ∀ i < blockSize apc.dllPath, s.readable (target.block + i)
  executable : ∀ i < injectStubBytes.length, s.executable (target.stub + i)

/-- The units of the UNICODE_STRING at an address. -/
def unicodeString (m : Memory) (address : ℕ) : List UInt16 :=
  Utf16.unitsOf (m.read (m.word64 (address + 8)).toNat (leValue (m.read address 2)))

/-- `LdrLoadDll(nullptr, nullptr, &name, &handle)` as the thread enters it from `s`: a name that is terminated
within its maximum length, a null handle, and nothing else changed. -/
structure EntersLdrLoadDll (apc : LoadApc) (s t : Cpu) : Prop where
  rip : t.rip = apc.ldrLoadDll
  searchPath : t.gpr rcx = 0
  flags : t.gpr rdx = 0
  name : unicodeString t.memory (t.gpr r8).toNat = apc.dllPath
  maximum : leValue (t.memory.read ((t.gpr r8).toNat + 2) 2) = leValue (t.memory.read (t.gpr r8).toNat 2) + 2
  terminated : leValue (t.memory.read ((t.memory.word64 ((t.gpr r8).toNat + 8)).toNat +
    leValue (t.memory.read (t.gpr r8).toNat 2)) 2) = 0
  handle : t.memory.word64 (t.gpr r9).toNat = 0
  registers : ∀ r, r ∉ [rax, rcx, rdx, r8, r9] → t.gpr r = s.gpr r
  memory : t.memory = s.memory

/-! ## What the target holds -/

theorem argumentWrites_apart (base : ℕ) (ldrLoadDll : UInt64) (dllPath : List UInt16) :
    ((argumentWrites base ldrLoadDll dllPath).map Write.span).Pairwise Apart := by
  simp [argumentWrites, Write.span, Apart]

theorem argumentWrites_inside (base : ℕ) (ldrLoadDll : UInt64) (dllPath : List UInt16) :
    ∀ w ∈ argumentWrites base ldrLoadDll dllPath,
      base ≤ w.off ∧ w.off + w.bytes.length ≤ base + 0x30 + 2 * dllPath.length := by
  simp [argumentWrites]
  omega

variable {apc : LoadApc} {target : Target apc.dllPath} {s : Cpu}

/-- Both regions, and nothing else, hold what was stored. -/
theorem queueIn_memory (apc : LoadApc) (target : Target apc.dllPath) :
    (apc.queueIn target).memory = target.memory.writeAll
      (argumentWrites target.block apc.ldrLoadDll apc.dllPath ++ [⟨target.stub, injectStubBytes⟩]) := rfl

theorem queueIn_reads (apc : LoadApc) (target : Target apc.dllPath) :
    ∀ w ∈ argumentWrites target.block apc.ldrLoadDll apc.dllPath ++ [⟨target.stub, injectStubBytes⟩],
      (apc.queueIn target).memory.read w.off w.bytes.length = w.bytes := by
  rw [queueIn_memory]
  apply Memory.read_writeAll
  rw [List.map_append, List.pairwise_append]
  refine ⟨argumentWrites_apart _ _ _, List.pairwise_singleton _ _, ?_⟩
  intro a ha b hb
  obtain ⟨w, hw, rfl⟩ := List.mem_map.mp ha
  obtain rfl := List.mem_singleton.mp hb
  have hinside := argumentWrites_inside _ _ _ w hw
  have hapart := target.apart
  simp only [Apart, Write.span, blockSize] at hapart ⊢
  omega

theorem Delivered.read (h : Delivered apc target s) {w : Write}
    (hw : w ∈ argumentWrites target.block apc.ldrLoadDll apc.dllPath) :
    s.memory.read w.off w.bytes.length = w.bytes := by
  obtain ⟨hlow, hhigh⟩ := argumentWrites_inside _ _ _ w hw
  have hpart := Memory.read_part h.block_kept (k := w.off - target.block) (l := w.bytes.length)
    (by simp only [blockSize]; omega)
  rw [Nat.add_sub_cancel' hlow] at hpart
  rw [hpart]
  exact queueIn_reads apc target w (List.mem_append_left _ hw)

theorem Delivered.loaded (h : Delivered apc target s) : s.Loaded injectStubBytes := by
  have hrip : s.rip.toNat = target.stub := by
    have hinside := target.stub_inside
    rw [h.routine, UInt64.toNat_ofNat']
    omega
  constructor
  · rw [hrip]
    exact target.stub_inside
  · rw [hrip, h.stub_kept]
    exact queueIn_reads apc target _ (List.mem_append_right _ (List.mem_singleton_self _))
  · rw [hrip]
    exact h.executable

/-- A pointer in the block is read as it was stored. -/
theorem Delivered.word64 (h : Delivered apc target s) {off v : ℕ}
    (hw : ⟨off, leBytes 8 v⟩ ∈ argumentWrites target.block apc.ldrLoadDll apc.dllPath) (hv : v < 2 ^ 64) :
    (s.memory.word64 off).toNat = v := by
  have hread := h.read hw
  rw [leBytes_length] at hread
  have hpow : (256 : ℕ) ^ 8 = 2 ^ 64 := by decide
  rw [Memory.word64, hread, leValue_leBytes, UInt64.toNat_ofNat', hpow, Nat.mod_mod, Nat.mod_eq_of_lt hv]

theorem Delivered.word16 (h : Delivered apc target s) {off v : ℕ}
    (hw : ⟨off, leBytes 2 v⟩ ∈ argumentWrites target.block apc.ldrLoadDll apc.dllPath) (hv : v < 2 ^ 16) :
    leValue (s.memory.read off 2) = v := by
  have hread := h.read hw
  rw [leBytes_length] at hread
  have hpow : (256 : ℕ) ^ 2 = 2 ^ 16 := by decide
  rw [hread, leValue_leBytes, hpow, Nat.mod_eq_of_lt hv]

/-- Behind the path the page is as it was committed. -/
theorem Delivered.zeroed (h : Delivered apc target s) {k n : ℕ} (hlow : 0x30 + 2 * apc.dllPath.length ≤ k)
    (hhigh : k + n ≤ blockSize apc.dllPath) :
    s.memory.read (target.block + k) n = List.replicate n 0 := by
  have hkept : (apc.queueIn target).memory.read (target.block + k) n = target.memory.read (target.block + k) n := by
    rw [queueIn_memory]
    apply Memory.read_writeAll_of_apart
    intro w hw
    have hapart := target.apart
    rcases List.mem_append.mp hw with hmem | hmem
    · have hinside := argumentWrites_inside _ _ _ w hmem
      simp only [Apart, Write.span]
      omega
    · obtain rfl := List.mem_singleton.mp hmem
      simp only [Apart, Write.span] at hapart ⊢
      omega
  rw [Memory.read_part h.block_kept hhigh, hkept, List.eq_replicate_iff]
  constructor
  · simp [Memory.read]
  · intro b hb
    obtain ⟨i, hi, rfl⟩ := List.mem_map.mp hb
    have hlt := List.mem_range.mp hi
    rw [Nat.add_assoc]
    exact target.zeroed (k + i) (by omega)

/-- A load from the block does not fault. -/
theorem Delivered.load64 (h : Delivered apc target s) {k : ℕ} (hk : k + 8 ≤ 0x30) {disp : UInt64}
    (hdisp : disp.toNat = k) :
    s.load64 (s.gpr rcx + disp) = some (s.memory.word64 (target.block + k)) := by
  have hinside := target.block_inside
  have haddress : (s.gpr rcx + disp).toNat = target.block + k := by
    rw [h.context, UInt64.toNat_add, UInt64.toNat_ofNat', hdisp]
    simp only [blockSize] at hinside
    omega
  rw [Cpu.load64, haddress, if_pos]
  rw [List.all_eq_true]
  intro i hi
  have hlt := List.mem_range.mp hi
  rw [Nat.add_assoc]
  exact h.readable _ (by simp only [blockSize]; omega)

/-! ## The stub in the target -/

/-- The listing, over the three pointers it finds. -/
theorem execAll_injectStub {name handle routine : UInt64} (hname : s.load64 (s.gpr rcx + 0) = some name)
    (hhandle : s.load64 (s.gpr rcx + 8) = some handle)
    (hroutine : s.load64 (s.gpr rcx + 0x10) = some routine) :
    ∃ t, s.execAll injectStub = some t ∧ t.rip = routine ∧ t.gpr rcx = 0 ∧ t.gpr rdx = 0 ∧ t.gpr r8 = name ∧
      t.gpr r9 = handle ∧ (∀ r, r ∉ [rax, rcx, rdx, r8, r9] → t.gpr r = s.gpr r) ∧ t.memory = s.memory := by
  have hdisp : Cpu.signExtend 0 = 0 ∧ Cpu.signExtend 8 = 8 ∧ Cpu.signExtend 0x10 = 0x10 := by decide
  have hne : rax ≠ rcx ∧ rax ≠ rdx ∧ rax ≠ r8 ∧ rax ≠ r9 := by decide
  -- up to the last load `rax` keeps what `rcx` was
  simp only [injectStub, Cpu.execAll, Cpu.exec, Option.bind_some, hdisp, UInt64.xor_self, UInt64.zero_and,
    Cpu.load64_regs, ne_eq, hne, not_false_eq_true, Function.update_of_ne, Function.update_self, hname, hhandle,
    hroutine, Option.map_some]
  refine ⟨_, rfl, rfl, rfl, rfl, rfl, rfl, ?_, rfl⟩
  intro r hr
  simp only [List.mem_cons, List.not_mem_nil, or_false, not_or] at hr
  simp only [ne_eq, hr, not_false_eq_true, Function.update_of_ne]

/-- The stub, from the first byte on: seven steps into `LdrLoadDll`. -/
theorem Delivered.enters (h : Delivered apc target s) (hpath : 2 * apc.dllPath.length + 2 < 2 ^ 16) :
    ∃ t, s.steps injectStub.length = some t ∧ EntersLdrLoadDll apc s t := by
  have hinside := target.block_inside
  simp only [blockSize] at hinside
  have hloaded : s.Loaded (encodeAll injectStub) := by
    rw [encodeAll_injectStub]
    exact h.loaded
  obtain ⟨t, hexec, hrip, hrcx, hrdx, hr8, hr9, hregs, hmemory⟩ := execAll_injectStub
    (h.load64 (k := 0) (by decide) rfl) (h.load64 (k := 8) (by decide) rfl)
    (h.load64 (k := 0x10) (by decide) rfl)
  refine ⟨t, (hloaded.steps (by decide) (by decide)).trans hexec, ?_⟩
  have hname : (t.gpr r8).toNat = target.block + 0x18 := by
    rw [hr8]
    exact h.word64 (by simp [argumentWrites]) (by omega)
  have hbuffer : (s.memory.word64 (target.block + 0x18 + 8)).toNat = target.block + 0x30 :=
    h.word64 (by simp [argumentWrites]) (by omega)
  have hlength : leValue (s.memory.read (target.block + 0x18) 2) = 2 * apc.dllPath.length :=
    h.word16 (by simp [argumentWrites]) (by omega)
  constructor
  · rw [hrip]
    apply UInt64.toNat_inj.mp
    exact h.word64 (by simp [argumentWrites]) (UInt64.toNat_lt _)
  · exact hrcx
  · exact hrdx
  · have hread := h.read (w := ⟨target.block + 0x30, Utf16.bytesOf apc.dllPath⟩) (by simp [argumentWrites])
    rw [Utf16.bytesOf_length] at hread
    rw [hmemory, hname, unicodeString, hbuffer, hlength, hread, Utf16.unitsOf_bytesOf]
  · rw [hmemory, hname, hlength]
    exact h.word16 (by simp [argumentWrites]) hpath
  · rw [hmemory, hname, hbuffer, hlength, Nat.add_assoc, h.zeroed (by omega) (by simp only [blockSize]; omega)]
    rfl
  · rw [hmemory, hr9]
    apply UInt64.toNat_inj.mp
    have hhandle : (s.memory.word64 (target.block + 8)).toNat = target.block + 0x28 :=
      h.word64 (by simp [argumentWrites]) (by omega)
    rw [hhandle]
    exact h.word64 (by simp [argumentWrites]) (by decide)
  · exact hregs
  · exact hmemory

/-! ## Where an APC's parts come from -/

def Op.paths : Op → List (List UInt16)
  | .setPolicy policy => policy.sensorDllPath.toList
  | _ => []

section
variable (upcase : UInt16 → UInt16)

/-- The answer of an export walk that `InjectionOnImageLoad` asked for. -/
def Op.rvas : Op → List UInt32
  | .resolve name resolved => if suffixMatches upcase name ntdllSuffix then resolved.toList else []
  | _ => []

end

/-- Paths among `paths` and function addresses among `rvas`, in the state and in what was queued. -/
structure Sourced (paths : List (List UInt16)) (rvas : List UInt32) (s : Engine) : Prop where
  policy : s.policy.sensorDllPath.toList ⊆ paths
  rva : s.ldrLoadDllRva.toList ⊆ rvas
  attempts : ∀ a ∈ s.attempts, ∃ path ∈ paths, a.dllPath = snapshotPath path
  apcs : ∀ apc ∈ s.apcs, apc.ldrLoadDllRva ∈ rvas ∧ ∃ path ∈ paths, apc.dllPath = snapshotPath path

section
variable {paths : List (List UInt16)} {rvas : List UInt32} {e : Engine}

theorem Sourced.tryInjectLocked (h : Sourced paths rvas e) (pid : UInt32) :
    Sourced paths rvas (Injection.tryInjectLocked e pid) := by
  unfold Injection.tryInjectLocked
  split
  · exact h
  · split
    · rename_i path _ hpath
      split
      · exact h
      · split
        · exact h
        · refine ⟨h.policy, h.rva, ?_, h.apcs⟩
          intro a ha
          rcases List.mem_append.mp ha with hold | hnew
          · exact h.attempts a hold
          · rw [List.mem_singleton.mp hnew]
            exact ⟨path, h.policy (by rw [hpath]; exact List.mem_singleton_self path), rfl⟩
    · exact h

theorem Sourced.onProcessCreate (upcase : UInt16 → UInt16) (h : Sourced paths rvas e) (pid : UInt32)
    (createTime : UInt64) (name : Option (List UInt16)) (tick : UInt64) (allocated : Bool) :
    Sourced paths rvas (Injection.onProcessCreate upcase e pid createTime name tick allocated) := by
  unfold Injection.onProcessCreate
  split
  · exact h
  · split
    · exact ⟨h.policy, h.rva, h.attempts, h.apcs⟩
    · simp only
      split
      · exact ⟨h.policy, h.rva, h.attempts, h.apcs⟩
      · exact ⟨h.policy, h.rva, h.attempts, h.apcs⟩

theorem Sourced.onFirstThread (h : Sourced paths rvas e) (pid : UInt32) (thread : ℕ) :
    Sourced paths rvas (Injection.onFirstThread e pid thread) := by
  unfold Injection.onFirstThread
  split
  · exact h
  · apply Sourced.tryInjectLocked
    exact ⟨h.policy, h.rva, h.attempts, h.apcs⟩

theorem Sourced.onImageLoad (h : Sourced paths rvas e) (pid : UInt32) (base : UInt64) (name : List UInt16) :
    Sourced paths rvas (Injection.onImageLoad e pid base name) := by
  unfold Injection.onImageLoad
  simp only
  split
  · exact ⟨h.policy, h.rva, h.attempts, h.apcs⟩
  · apply Sourced.tryInjectLocked
    exact ⟨h.policy, h.rva, h.attempts, h.apcs⟩

theorem Sourced.runAttempt (h : Sourced paths rvas e) (k : ℕ) (lookupOk queueOk : Bool) :
    Sourced paths rvas (Injection.runAttempt e k lookupOk queueOk) := by
  unfold Injection.runAttempt
  split
  · exact h
  · rename_i attempt hattempt
    have hpath := h.attempts attempt (List.mem_of_getElem? hattempt)
    have hset : ∀ result, ∀ a ∈ e.attempts.set k { attempt with result := result },
        ∃ path ∈ paths, a.dllPath = snapshotPath path := by
      intro result a ha
      rcases List.mem_or_eq_of_mem_set ha with hold | rfl
      · exact h.attempts a hold
      · exact hpath
    split
    · exact h
    · split
      · exact ⟨h.policy, h.rva, hset _, h.apcs⟩
      · split
        · exact ⟨h.policy, h.rva, hset _, h.apcs⟩
        · rename_i rva hrva
          split
          · exact ⟨h.policy, h.rva, hset _, h.apcs⟩
          · refine ⟨h.policy, h.rva, hset _, ?_⟩
            intro apc hapc
            rcases List.mem_append.mp hapc with hold | hnew
            · exact h.apcs apc hold
            · rw [List.mem_singleton.mp hnew]
              exact ⟨h.rva (by rw [hrva]; exact List.mem_singleton_self rva), hpath⟩

theorem Sourced.fixup (h : Sourced paths rvas e) (k : ℕ) : Sourced paths rvas (Injection.fixup e k) := by
  have herase : ∀ a ∈ e.attempts.eraseIdx k, ∃ path ∈ paths, a.dllPath = snapshotPath path :=
    fun a ha => h.attempts a (List.mem_of_mem_eraseIdx ha)
  unfold Injection.fixup
  split
  · exact h
  · split
    · exact h
    · simp only
      split
      · exact ⟨h.policy, h.rva, herase, h.apcs⟩
      · split
        · exact ⟨h.policy, h.rva, herase, h.apcs⟩
        · exact ⟨h.policy, h.rva, herase, h.apcs⟩
        · exact ⟨h.policy, h.rva, herase, h.apcs⟩

theorem Sourced.step (upcase : UInt16 → UInt16) (h : Sourced paths rvas e) {op : Op} (hpaths : op.paths ⊆ paths)
    (hrvas : op.rvas upcase ⊆ rvas) : Sourced paths rvas (Injection.step upcase e op) := by
  cases op with
  | setPolicy policy => exact ⟨hpaths, h.rva, h.attempts, h.apcs⟩
  | processCreate pid createTime name tick allocated =>
    exact h.onProcessCreate upcase pid createTime name tick allocated
  | firstThread pid thread => exact h.onFirstThread pid thread
  | resolve name resolved =>
    simp only [Injection.step, resolveLdrLoadDll]
    split
    · rename_i hchecks
      refine ⟨h.policy, ?_, h.attempts, h.apcs⟩
      rw [Bool.and_eq_true] at hchecks
      rwa [Op.rvas, if_pos hchecks.2] at hrvas
    · exact h
  | imageLoad pid base name => exact h.onImageLoad pid base name
  | attempt k lookupOk queueOk => exact h.runAttempt k lookupOk queueOk
  | fixup k => exact h.fixup k
  | processExit pid => exact ⟨h.policy, h.rva, h.attempts, h.apcs⟩

theorem Sourced.run (upcase : UInt16 → UInt16) (h : Sourced paths rvas e) {ops : List Op}
    (hpaths : ∀ op ∈ ops, op.paths ⊆ paths) (hrvas : ∀ op ∈ ops, op.rvas upcase ⊆ rvas) :
    Sourced paths rvas (Runs.run (Injection.step upcase) e ops) := by
  induction ops generalizing e with
  | nil => exact h
  | cons op ops ih =>
    rw [run_cons]
    apply ih
    · exact h.step upcase (hpaths op (List.mem_cons_self ..)) (hrvas op (List.mem_cons_self ..))
    · intro op' hop'
      exact hpaths op' (List.mem_cons_of_mem _ hop')
    · intro op' hop'
      exact hrvas op' (List.mem_cons_of_mem _ hop')

end

section
variable (upcase : UInt16 → UInt16)

theorem init_sourced (policy : Policy) (ops : List Op) :
    Sourced (policy.sensorDllPath.toList ++ ops.flatMap Op.paths) (ops.flatMap (Op.rvas upcase))
      (run (step upcase) (init policy) ops) := by
  have hinit : Sourced (policy.sensorDllPath.toList ++ ops.flatMap Op.paths) (ops.flatMap (Op.rvas upcase))
      (init policy) :=
    ⟨List.subset_append_left _ _, by simp [init], by simp [init], by simp [init]⟩
  apply hinit.run upcase
  · intro op hop path hpath
    exact List.mem_append_right _ (List.mem_flatMap.mpr ⟨op, hop, hpath⟩)
  · intro op hop rva hrva
    exact List.mem_flatMap.mpr ⟨op, hop, hrva⟩

end

/-! A process with zeroed pages, and a thread that takes its APC at once. -/

def loadApc : LoadApc := ⟨4000, 0, 1, 0x7FF0, 0x5000, wide "\\sensor.dll"⟩

end SecOutfall.Injection
