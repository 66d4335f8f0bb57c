import Mathlib.Logic.Function.Basic
import SecOutfall.Foundations.Memory

/-! A fragment of the 64-bit x86 instruction set: register moves, 32-bit exclusive or, loads at an 8-bit
displacement and jumps to a register; their encoding, fetch and execution.

Flags are left out, as no instruction here reads them. -/
namespace SecOutfall.X64
set_option autoImplicit false

/-! ## Instructions -/

/-- Registers by their number in an encoding. -/
abbrev Reg := Fin 16

def rax : Reg := 0
def rcx : Reg := 1
def rdx : Reg := 2
def r8 : Reg := 8
def r9 : Reg := 9

inductive Instr where
  | mov (dst src : Reg)
  | xor32 (dst src : Reg)
  | load (dst base : Reg) (disp : UInt8)
  | jmp (target : Reg)
  deriving DecidableEq, Repr

/-- Control goes on behind the instruction. -/
def Instr.falls : Instr → Bool
  | .jmp _ => false
  | _ => true

/-! ## Encoding -/

def low (r : Reg) : ℕ := r.val % 8

def high (r : Reg) : ℕ := r.val / 8

def regOf (high low : ℕ) : Reg := Fin.ofNat 16 (8 * high + low)

def rex (w r b : ℕ) : UInt8 := .ofNat (0x40 + 8 * w + 4 * r + b)

def modRm (mode reg rm : ℕ) : UInt8 := .ofNat (64 * mode + 8 * reg + rm)

/-- The prefix of an instruction that needs one only for the upper registers. -/
def rexUpper (r b : ℕ) : List UInt8 := if r = 0 ∧ b = 0 then [] else [rex 0 r b]

def encode : Instr → List UInt8
  | .mov dst src => [rex 1 (high src) (high dst), 0x89, modRm 3 (low src) (low dst)]
  | .xor32 dst src => rexUpper (high src) (high dst) ++ [0x31, modRm 3 (low src) (low dst)]
  | .load dst base disp =>
    [rex 1 (high dst) (high base), 0x8B] ++
      -- without a displacement the number of rbp and r13 stands for an address relative to rip
      if disp = 0 ∧ low base ≠ 5 then [modRm 0 (low dst) (low base)]
      else [modRm 1 (low dst) (low base), disp]
  | .jmp target => rexUpper 0 (high target) ++ [0xFF, modRm 3 4 (low target)]

def encodeAll (is : List Instr) : List UInt8 := is.flatMap encode

/-- A base of rsp or r12 takes a further byte, which is not in the fragment. -/
def Instr.Encodable : Instr → Prop
  | .load _ base _ => low base ≠ 4
  | _ => True

instance decidableEncodable (i : Instr) : Decidable i.Encodable := by
  cases i <;> unfold Instr.Encodable <;> infer_instance

/-! ## Decoding -/

/-- The operands a byte behind the opcode names, under the bits of the prefix. -/
def decodeLoad (r b : ℕ) (operands : UInt8) (rest : List UInt8) : Option (Instr × ℕ) :=
  let dst := regOf r (operands.toNat / 8 % 8)
  let base := regOf b (operands.toNat % 8)
  if operands.toNat % 8 = 4 then none
  else if operands.toNat / 64 = 0 ∧ operands.toNat % 8 ≠ 5 then some (.load dst base 0, 2)
  else if operands.toNat / 64 = 1 then rest.head?.map fun disp => (.load dst base disp, 3)
  else none

def decodeOpcode (w r b : ℕ) : List UInt8 → Option (Instr × ℕ)
  | opcode :: operands :: rest =>
    let rm := regOf b (operands.toNat % 8)
    let reg := regOf r (operands.toNat / 8 % 8)
    let direct : Bool := operands.toNat / 64 = 3
    if opcode = 0x89 ∧ w = 1 ∧ direct then some (.mov rm reg, 2)
    else if opcode = 0x31 ∧ w = 0 ∧ direct then some (.xor32 rm reg, 2)
    else if opcode = 0x8B ∧ w = 1 then decodeLoad r b operands rest
    else if opcode = 0xFF ∧ direct ∧ operands.toNat / 8 % 8 = 4 then some (.jmp rm, 2)
    else none
  | _ => none

/-- The first instruction of a byte string and its length. -/
def decode : List UInt8 → Option (Instr × ℕ)
  | [] => none
  | first :: rest =>
    if first.toNat / 16 = 4 then
      (decodeOpcode (first.toNat / 8 % 2) (first.toNat / 4 % 2) (first.toNat % 2) rest).map
        fun (i, n) => (i, n + 1)
    else decodeOpcode 0 0 0 (first :: rest)

theorem low_lt (r : Reg) : low r < 8 := Nat.mod_lt _ (by decide)

theorem high_lt (r : Reg) : high r < 2 := by
  have h := r.isLt
  unfold high
  omega

@[simp] theorem regOf_high_low (r : Reg) : regOf (high r) (low r) = r := by
  have h := r.isLt
  apply Fin.ext
  simp only [regOf, high, low, Fin.val_ofNat]
  omega

theorem modRm_fields {m g b : ℕ} (hm : m < 4) (hg : g < 8) (hb : b < 8) :
    (modRm m g b).toNat / 64 = m ∧ (modRm m g b).toNat / 8 % 8 = g ∧ (modRm m g b).toNat % 8 = b := by
  rw [modRm, UInt8.toNat_ofNat']
  omega

theorem toNat_rex {w r b : ℕ} (hw : w < 2) (hr : r < 2) (hb : b < 2) :
    (rex w r b).toNat = 0x40 + 8 * w + 4 * r + b := by
  rw [rex, UInt8.toNat_ofNat']
  omega

/-- A prefix hands its bits to what follows. -/
theorem decode_rex {w r b : ℕ} (hw : w < 2) (hr : r < 2) (hb : b < 2) (rest : List UInt8) :
    decode (rex w r b :: rest) = (decodeOpcode w r b rest).map fun (i, n) => (i, n + 1) := by
  have h := toNat_rex hw hr hb
  have hprefix : (rex w r b).toNat / 16 = 4 := by omega
  have hbits : (rex w r b).toNat / 8 % 2 = w ∧ (rex w r b).toNat / 4 % 2 = r ∧ (rex w r b).toNat % 2 = b := by
    omega
  rw [decode, if_pos hprefix, hbits.1, hbits.2.1, hbits.2.2]

/-- So does one that is there only where it is needed. -/
theorem decode_rexUpper {r b : ℕ} (hr : r < 2) (hb : b < 2) {opcode : UInt8} (hopcode : opcode.toNat / 16 ≠ 4)
    {rest : List UInt8} {i : Instr} {n : ℕ} (h : decodeOpcode 0 r b (opcode :: rest) = some (i, n)) :
    decode (rexUpper r b ++ opcode :: rest) = some (i, (rexUpper r b).length + n) := by
  unfold rexUpper
  split_ifs with hzero
  · obtain ⟨rfl, rfl⟩ := hzero
    rw [List.nil_append, decode, if_neg hopcode, h, List.length_nil, Nat.zero_add]
  · rw [List.singleton_append, decode_rex (by decide) hr hb, h, Option.map_some, List.length_singleton,
      Nat.add_comm]

/-- What stands behind an instruction does not change how it is read. -/
theorem decode_encode {i : Instr} (hi : i.Encodable) (rest : List UInt8) :
    decode (encode i ++ rest) = some (i, (encode i).length) := by
  cases i with
  | mov dst src =>
    have hfields := modRm_fields (m := 3) (by decide) (low_lt src) (low_lt dst)
    simp [encode, decode_rex (w := 1) (by decide) (high_lt src) (high_lt dst), decodeOpcode, hfields]
  | xor32 dst src =>
    have hfields := modRm_fields (m := 3) (by decide) (low_lt src) (low_lt dst)
    rw [encode, List.append_assoc]
    show decode (rexUpper (high src) (high dst) ++ 0x31 :: modRm 3 (low src) (low dst) :: rest) = _
    rw [decode_rexUpper (high_lt src) (high_lt dst) (by decide) (i := .xor32 dst src) (n := 2)
      (by simp [decodeOpcode, hfields])]
    simp
  | load dst base disp =>
    have hbase : low base ≠ 4 := hi
    rw [encode]
    split_ifs with hdisp
    · have hfields := modRm_fields (m := 0) (by decide) (low_lt dst) (low_lt base)
      simp [decode_rex (w := 1) (by decide) (high_lt dst) (high_lt base), decodeOpcode, decodeLoad, hfields,
        hbase, hdisp]
    · have hfields := modRm_fields (m := 1) (by decide) (low_lt dst) (low_lt base)
      simp [decode_rex (w := 1) (by decide) (high_lt dst) (high_lt base), decodeOpcode, decodeLoad, hfields,
        hbase]
  | jmp target =>
    have hfields := modRm_fields (m := 3) (g := 4) (by decide) (by decide) (low_lt target)
    rw [encode, List.append_assoc]
    show decode (rexUpper 0 (high target) ++ 0xFF :: modRm 3 4 (low target) :: rest) = _
    rw [decode_rexUpper (by decide) (high_lt target) (by decide) (i := .jmp target) (n := 2)
      (by simp [decodeOpcode, hfields])]
    simp

theorem rexUpper_length_le (r b : ℕ) : (rexUpper r b).length ≤ 1 := by
  unfold rexUpper
  split_ifs
  · exact Nat.zero_le 1
  · exact Nat.le_refl 1

theorem encode_length_le (i : Instr) : (encode i).length ≤ 15 := by
  cases i with
  | mov dst src => exact (by decide : 3 ≤ 15)
  | xor32 dst src =>
    have h := rexUpper_length_le (high src) (high dst)
    rw [encode, List.length_append]
    exact Nat.le_trans (Nat.add_le_add_right h 2) (by decide)
  | load dst base disp =>
    rw [encode]
    split_ifs
    · exact (by decide : 3 ≤ 15)
    · exact (by decide : 4 ≤ 15)
  | jmp target =>
    have h := rexUpper_length_le 0 (high target)
    rw [encode, List.length_append]
    exact Nat.le_trans (Nat.add_le_add_right h 2) (by decide)

/-! ## Execution -/

/-- A processor in its address space; `readable` and `executable` are what the pages allow. -/
structure Cpu where
  gpr : Reg → UInt64
  rip : UInt64
  memory : Memory
  readable : ℕ → Bool
  executable : ℕ → Bool

namespace Cpu

/-- Up to 15 bytes from the instruction pointer on, as far as they may be executed. -/
def fetch (s : Cpu) : List UInt8 :=
  (((List.range 15).map fun i => s.rip.toNat + i).takeWhile s.executable).map fun a => s.memory a

def load64 (s : Cpu) (address : UInt64) : Option UInt64 :=
  if (List.range 8).all fun i => s.readable (address.toNat + i) then some (s.memory.word64 address.toNat) else none

def signExtend (disp : UInt8) : UInt64 := if disp < 0x80 then disp.toUInt64 else disp.toUInt64 - 0x100

/-- An instruction with the next one at `next`; a load that faults gives no state. -/
def exec (s : Cpu) (next : UInt64) : Instr → Option Cpu
  | .mov dst src => some { s with gpr := Function.update s.gpr dst (s.gpr src), rip := next }
  | .xor32 dst src =>
    -- a 32-bit result clears the upper half of its register
    some { s with gpr := Function.update s.gpr dst ((s.gpr dst ^^^ s.gpr src) &&& 0xFFFFFFFF), rip := next }
  | .load dst base disp =>
    (s.load64 (s.gpr base + signExtend disp)).map fun v =>
      { s with gpr := Function.update s.gpr dst v, rip := next }
  | .jmp target => some { s with rip := s.gpr target }

/-- Registers are not memory. -/
@[simp] theorem load64_regs (s : Cpu) (gpr : Reg → UInt64) (rip address : UInt64) :
    load64 { s with gpr, rip } address = s.load64 address := rfl

/-- Fetch, decode and execute; no state where one of them faults. -/
def step (s : Cpu) : Option Cpu := (decode s.fetch).bind fun (i, n) => s.exec (s.rip + .ofNat n) i

def steps : ℕ → Cpu → Option Cpu
  | 0, s => some s
  | n + 1, s => s.step.bind (steps n)

/-- A listing executed without its encoding. -/
def execAll : List Instr → Cpu → Option Cpu
  | [], s => some s
  | i :: is, s => (s.exec (s.rip + .ofNat (encode i).length) i).bind (execAll is)

/-- The instruction pointer stands in front of `code`, which may be executed. -/
structure Loaded (s : Cpu) (code : List UInt8) : Prop where
  inside : s.rip.toNat + code.length < 2 ^ 64
  bytes : s.memory.read s.rip.toNat code.length = code
  executable : ∀ i < code.length, s.executable (s.rip.toNat + i)

theorem takeWhile_range (p : ℕ → Bool) (f : ℕ → ℕ) {n m : ℕ} (h : n ≤ m) (hp : ∀ i < n, p (f i)) :
    ∃ rest, ((List.range m).map f).takeWhile p = (List.range n).map f ++ rest := by
  obtain ⟨k, rfl⟩ := Nat.exists_eq_add_of_le h
  rw [List.range_add, List.map_append, List.takeWhile_append_of_pos]
  · exact ⟨_, rfl⟩
  · intro x hx
    obtain ⟨i, hi, rfl⟩ := List.mem_map.mp hx
    exact hp i (List.mem_range.mp hi)

variable {s t : Cpu}

theorem Loaded.left {code rest : List UInt8} (h : s.Loaded (code ++ rest)) : s.Loaded code where
  inside := by
    have hinside := h.inside
    rw [List.length_append] at hinside
    omega
  bytes := by
    have htake := congrArg (List.take code.length) h.bytes
    rwa [List.take_left, List.length_append, Memory.read_take s.memory _ (Nat.le_add_right _ _)] at htake
  executable i hi := h.executable i (by rw [List.length_append]; omega)

theorem Loaded.fetch {code : List UInt8} (h : s.Loaded code) (hlen : code.length ≤ 15) :
    ∃ rest, s.fetch = code ++ rest := by
  obtain ⟨rest, hrest⟩ := takeWhile_range s.executable (fun i => s.rip.toNat + i) hlen h.executable
  refine ⟨rest.map fun a => s.memory a, ?_⟩
  rw [Cpu.fetch, hrest, List.map_append, List.map_map]
  exact congrArg (· ++ rest.map fun a => s.memory a) h.bytes

/-- Where an encoded instruction is loaded, the step executes that instruction. -/
theorem Loaded.step {i : Instr} {code : List UInt8} (h : s.Loaded (encode i ++ code)) (hi : i.Encodable) :
    s.step = s.exec (s.rip + .ofNat (encode i).length) i := by
  obtain ⟨rest, hrest⟩ := h.left.fetch (encode_length_le i)
  rw [Cpu.step, hrest, decode_encode hi, Option.bind_some]

theorem exec_memory {i : Instr} {next : UInt64} (h : s.exec next i = some t) :
    t.memory = s.memory ∧ t.readable = s.readable ∧ t.executable = s.executable := by
  cases i with
  | mov dst src => obtain rfl := Option.some.inj h; exact ⟨rfl, rfl, rfl⟩
  | xor32 dst src => obtain rfl := Option.some.inj h; exact ⟨rfl, rfl, rfl⟩
  | load dst base disp =>
    obtain ⟨v, -, rfl⟩ := Option.map_eq_some_iff.mp h
    exact ⟨rfl, rfl, rfl⟩
  | jmp target => obtain rfl := Option.some.inj h; exact ⟨rfl, rfl, rfl⟩

theorem exec_rip {i : Instr} {next : UInt64} (h : s.exec next i = some t) (hfalls : i.falls) :
    t.rip = next := by
  cases i with
  | mov dst src => obtain rfl := Option.some.inj h; rfl
  | xor32 dst src => obtain rfl := Option.some.inj h; rfl
  | load dst base disp => obtain ⟨v, -, rfl⟩ := Option.map_eq_some_iff.mp h; rfl
  | jmp target => cases hfalls

/-- An instruction that goes on behind itself leaves the rest of the code loaded. -/
theorem Loaded.exec {i : Instr} {code : List UInt8} (h : s.Loaded (encode i ++ code)) (hfalls : i.falls)
    (hexec : s.exec (s.rip + .ofNat (encode i).length) i = some t) : t.Loaded code := by
  obtain ⟨hmemory, -, hexecutable⟩ := exec_memory hexec
  have hinside := h.inside
  have hlen : (encode i).length ≤ 15 := encode_length_le i
  rw [List.length_append] at hinside
  have hrip : t.rip.toNat = s.rip.toNat + (encode i).length := by
    rw [exec_rip hexec hfalls, UInt64.toNat_add, UInt64.toNat_ofNat']
    omega
  constructor
  · omega
  · have hdrop := congrArg (List.drop (encode i).length) h.bytes
    rw [List.drop_left, List.length_append, Memory.read_drop] at hdrop
    rw [hmemory, hrip]
    exact hdrop
  · intro k hk
    rw [hexecutable, hrip, Nat.add_assoc]
    exact h.executable _ (by rw [List.length_append]; omega)

/-- Encoded code runs as its listing does, if only its last instruction may jump. -/
theorem Loaded.steps {is : List Instr} (h : s.Loaded (encodeAll is)) (hencodable : ∀ i ∈ is, i.Encodable)
    (hfalls : ∀ i ∈ is.dropLast, i.falls) : s.steps is.length = s.execAll is := by
  induction is generalizing s with
  | nil => rfl
  | cons i is ih =>
    have hcode : s.Loaded (encode i ++ encodeAll is) := h
    rw [List.length_cons, Cpu.steps, Cpu.execAll, hcode.step (hencodable i (List.mem_cons_self ..))]
    cases hexec : s.exec (s.rip + .ofNat (encode i).length) i with
    | none => rfl
    | some t =>
      rw [Option.bind_some, Option.bind_some]
      cases is with
      | nil => rfl
      | cons j is =>
        rw [List.dropLast_cons_cons] at hfalls
        exact ih (hcode.exec (hfalls i (List.mem_cons_self ..)) hexec)
          (fun k hk => hencodable k (List.mem_cons_of_mem _ hk)) fun k hk => hfalls k (List.mem_cons_of_mem _ hk)

end Cpu

end SecOutfall.X64
