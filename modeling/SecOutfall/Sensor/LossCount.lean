import Mathlib.Data.List.Nodup
import SecOutfall.Foundations.Runs
import SecOutfall.Sensor.CallRoundTrip

/-! What the ring's own `Dropped` counter counts.

`emit` counts a call whenever its slot has a committed record of a lap before. That record is lost only
if no drain has promoted it, which the slot does not tell. -/
namespace SecOutfall.Sensor
open Runs
set_option autoImplicit false

/-! ## Model -/

/-- One ring with the drains' cursor. The calls of `emit` are numbered; `held` has the one whose record a
slot holds (history). -/
structure CountedRing where
  memory : Memory
  cursor : UInt64
  calls : ℕ
  held : ℕ → Option ℕ
  promoted : List ℕ
  overwritten : List ℕ

namespace CountedRing

def init : CountedRing := ⟨activatedRing, 0, 0, fun _ => none, [], []⟩

/-- The slot of the next call. -/
def nextSlot (s : CountedRing) : ℕ := emitSlot s.memory (s.memory.word64 RingControl.writeIndex)

/-- A committed record that no drain has promoted is overwritten with the slot. -/
def overwrite (s : CountedRing) (memory : Memory) : CountedRing :=
  { s with
    memory
    calls := s.calls + 1
    held := Function.update s.held s.nextSlot (some s.calls)
    overwritten := s.overwritten ++ (s.held s.nextSlot).toList.filter fun call => call ∉ s.promoted }

def emit (s : CountedRing) (call : Call) : CountedRing :=
  if s.memory.word32 RingControl.state ≠ 1 then s
  else
    match Sensor.emit s.memory call with
    | some memory => s.overwrite memory
    | none => s

def drain (s : CountedRing) : CountedRing :=
  let drained := drainRing s.memory s.cursor
  { s with
    cursor := drained.cursor.getD s.cursor
    promoted := s.promoted ++ drained.promoted.filterMap fun p => s.held (drainSlot s.memory p.index) }

inductive Op where
  | emit (call : Call)
  | drain

def step (s : CountedRing) : Op → CountedRing
  | .emit call => s.emit call
  | .drain => s.drain

def dropped (s : CountedRing) : UInt64 := s.memory.word64 RingControl.dropped

/-- `overwritten` names every record once, and `Dropped` is at most their number. -/
structure Honest (s : CountedRing) : Prop where
  distinct : s.overwritten.Nodup
  bounded : s.dropped.toNat ≤ s.overwritten.length

/-- The next call of `emit` overwrites no record that a drain has promoted. -/
def spares (s : CountedRing) : Op → Bool
  | .emit _ => (s.held s.nextSlot).all fun call => decide (call ∉ s.promoted)
  | .drain => true

end CountedRing

/-! ## One call -/

/-- The test of `emit` on the slot's sequence word. -/
def countsLoss (mem : Memory) : Prop :=
  let claimed := mem.word64 RingControl.writeIndex
  let previous := mem.word64 (emitSlot mem claimed)
  previous ≠ 0 ∧ asI64 (claimed - (previous - 1)) ≥ ((mem.word32 RingControl.slotCount).toNat : ℤ)

instance decidableCountsLoss (mem : Memory) : Decidable (countsLoss mem) := inferInstanceAs (Decidable (_ ∧ _))

theorem emitSlot_congr {mem mem' : Memory}
    (h : mem'.word32 RingControl.slotCount = mem.word32 RingControl.slotCount) (claimed : UInt64) :
    emitSlot mem' claimed = emitSlot mem claimed := by
  rw [emitSlot, emitSlot, h]

theorem word64_writeSlot_of_ne (mem : Memory) {slot off : ℕ} (call : Call)
    (h : off + 8 ≤ slot + 8 ∨ slot + 48 ≤ off) : (writeSlot mem slot call).word64 off = mem.word64 off := by
  rw [Memory.word64, read_writeSlot_of_ne mem call h, Memory.word64]

/-- `Dropped` goes up by one where the test holds, and nowhere else. -/
theorem emit_dropped {mem mem' : Memory} (h : LiveRing mem) {call : Call} (hemit : emit mem call = some mem') :
    mem'.word64 RingControl.dropped =
      if countsLoss mem then mem.word64 RingControl.dropped + 1 else mem.word64 RingControl.dropped := by
  set claimed := mem.word64 RingControl.writeIndex with hclaimed
  set claim := mem.write64 RingControl.writeIndex (claimed + 1) with hclaim
  have hcount : claim.word32 RingControl.slotCount = mem.word32 RingControl.slotCount :=
    Memory.word32_write64_of_ne _ _ (by simp)
  have hslot : emitSlot claim claimed = emitSlot mem claimed := emitSlot_congr hcount claimed
  have hge : 32 ≤ emitSlot mem claimed := emitSlot_ge mem claimed
  have hprevious : claim.word64 (emitSlot mem claimed) = mem.word64 (emitSlot mem claimed) :=
    Memory.word64_write64_of_ne _ _ (by simp; omega)
  have hkept : claim.word64 RingControl.dropped = mem.word64 RingControl.dropped :=
    Memory.word64_write64_of_ne _ _ (by simp)
  simp only [emit, h.state, ne_eq, not_true_eq_false, if_false, ← hclaimed, ← hclaim, hcount, h.geometry.2.1,
    hslot, hprevious, hkept, Option.some.injEq] at hemit
  rw [← hemit, Memory.word64_write64_of_ne _ _ (by simp; omega), word64_writeSlot_of_ne _ _ (by simp; omega)]
  by_cases hcounts : countsLoss mem
  · have htest := hcounts
    simp only [countsLoss, ← hclaimed] at htest
    rw [if_pos hcounts, if_pos htest, Memory.word64_write64]
  · have htest := hcounts
    simp only [countsLoss, ← hclaimed] at htest
    rw [if_neg hcounts, if_neg htest, hkept]

theorem Emits.emitSlot_eq {mem mem' : Memory} {call : Call} (he : Emits mem mem' call) (index : UInt64) :
    emitSlot mem' index = emitSlot mem index := by
  refine emitSlot_congr ?_ index
  rw [Memory.word32, he.frame _ 4 (.inl (by simp)), Memory.word32]

/-- The sequence word of another slot. -/
theorem Emits.word64_of_ne {mem mem' : Memory} {call : Call} (he : Emits mem mem' call) (h : LiveRing mem)
    {index : UInt64} (hne : emitSlot mem index ≠ emitSlot mem (mem.word64 RingControl.writeIndex)) :
    mem'.word64 (emitSlot mem index) = mem.word64 (emitSlot mem index) := by
  have hapart := h.drainSlot_disjoint index (mem.word64 RingControl.writeIndex)
  rw [← h.emitSlot_eq, ← h.emitSlot_eq] at hapart
  have hge : 32 ≤ emitSlot mem index := emitSlot_ge mem index
  rw [Memory.word64, he.frame _ 8 (.inr ⟨hge, ?_⟩), Memory.word64]
  obtain hsame | hbefore | hbehind := hapart
  · exact absurd hsame hne
  · exact .inl (by omega)
  · exact .inr hbehind

namespace CountedRing

/-! ## Records and slots -/

/-- A slot that was ever committed holds a record, and a record that is gone is held by no slot. -/
structure Tracked (s : CountedRing) : Prop where
  live : LiveRing s.memory
  backed : ∀ index, s.memory.word64 (emitSlot s.memory index) ≠ 0 → s.held (emitSlot s.memory index) ≠ none
  earlier : ∀ slot call, s.held slot = some call → call < s.calls
  single : ∀ slot slot' call, s.held slot = some call → s.held slot' = some call → slot = slot'
  gone : ∀ call ∈ s.overwritten, call < s.calls ∧ ∀ slot, s.held slot ≠ some call
  distinct : s.overwritten.Nodup

section
variable {s : CountedRing}

theorem emit_eq (h : s.Tracked) (call : Call) :
    ∃ memory, Sensor.emit s.memory call = some memory ∧ Emits s.memory memory call ∧
      s.emit call = s.overwrite memory := by
  obtain ⟨memory, hemit, hemits⟩ := emit_emits h.live call
  refine ⟨memory, hemit, hemits, ?_⟩
  rw [emit, if_neg (not_not.mpr h.live.state), hemit]

@[simp] theorem overwrite_memory (memory : Memory) : (s.overwrite memory).memory = memory := rfl

@[simp] theorem overwrite_calls (memory : Memory) : (s.overwrite memory).calls = s.calls + 1 := rfl

@[simp] theorem overwrite_held (memory : Memory) :
    (s.overwrite memory).held = Function.update s.held s.nextSlot (some s.calls) := rfl

@[simp] theorem overwrite_overwritten (memory : Memory) : (s.overwrite memory).overwritten =
    s.overwritten ++ (s.held s.nextSlot).toList.filter fun call => call ∉ s.promoted := rfl

theorem held_overwrite {memory : Memory} {slot call : ℕ} (h : (s.overwrite memory).held slot = some call) :
    slot = s.nextSlot ∧ call = s.calls ∨ slot ≠ s.nextSlot ∧ s.held slot = some call := by
  rw [overwrite_held] at h
  by_cases hslot : slot = s.nextSlot
  · rw [hslot] at h
    rw [Function.update_self] at h
    exact .inl ⟨hslot, (Option.some.inj h).symm⟩
  · rw [Function.update_of_ne hslot] at h
    exact .inr ⟨hslot, h⟩

theorem mem_overwritten {memory : Memory} {call : ℕ} (h : call ∈ (s.overwrite memory).overwritten) :
    call ∈ s.overwritten ∨ s.held s.nextSlot = some call := by
  rw [overwrite_overwritten] at h
  obtain hold | hnew := List.mem_append.mp h
  · exact .inl hold
  · exact .inr (Option.mem_toList.mp (List.mem_filter.mp hnew).1)

theorem Tracked.overwrite (h : s.Tracked) {memory : Memory} {call : Call} (hemits : Emits s.memory memory call) :
    (s.overwrite memory).Tracked where
  live := hemits.live h.live
  backed := by
    intro index hword
    rw [overwrite_memory] at hword
    rw [overwrite_memory, overwrite_held]
    rw [hemits.emitSlot_eq] at hword ⊢
    by_cases hslot : emitSlot s.memory index = s.nextSlot
    · rw [hslot, Function.update_self]
      exact Option.some_ne_none _
    · rw [hemits.word64_of_ne h.live hslot] at hword
      rw [Function.update_of_ne hslot]
      exact h.backed index hword
  earlier := by
    intro slot number hheld
    obtain ⟨-, hnumber⟩ | ⟨-, hold⟩ := held_overwrite hheld
    · rw [hnumber]
      exact Nat.lt_succ_self _
    · exact Nat.lt_succ_of_lt (h.earlier slot number hold)
  single := by
    intro slot slot' number hheld hheld'
    obtain ⟨hslot, hnumber⟩ | ⟨-, hold⟩ := held_overwrite hheld
    · obtain ⟨hslot', -⟩ | ⟨-, hold'⟩ := held_overwrite hheld'
      · rw [hslot, hslot']
      · exact absurd (hnumber ▸ h.earlier _ _ hold') (Nat.lt_irrefl _)
    · obtain ⟨-, hnumber⟩ | ⟨-, hold'⟩ := held_overwrite hheld'
      · exact absurd (hnumber ▸ h.earlier _ _ hold) (Nat.lt_irrefl _)
      · exact h.single slot slot' number hold hold'
  gone := by
    intro number hnumber
    obtain hold | hlost := mem_overwritten hnumber
    · obtain ⟨hlt, hfree⟩ := h.gone number hold
      refine ⟨Nat.lt_succ_of_lt hlt, fun slot hheld => ?_⟩
      obtain ⟨-, hlast⟩ | ⟨-, hheld⟩ := held_overwrite hheld
      · exact Nat.lt_irrefl _ (hlast ▸ hlt)
      · exact hfree slot hheld
    · have hlt := h.earlier _ _ hlost
      refine ⟨Nat.lt_succ_of_lt hlt, fun slot hheld => ?_⟩
      obtain ⟨-, hlast⟩ | ⟨hne, hheld⟩ := held_overwrite hheld
      · exact Nat.lt_irrefl _ (hlast ▸ hlt)
      · exact hne (h.single slot s.nextSlot number hheld hlost)
  distinct := by
    rw [overwrite_overwritten]
    refine List.Nodup.append h.distinct ?_ ?_
    · cases s.held s.nextSlot with
      | none => exact List.nodup_nil
      | some number => exact List.Nodup.filter _ (List.nodup_singleton number)
    · intro number hold hnew
      exact (h.gone number hold).2 _ (Option.mem_toList.mp (List.mem_filter.mp hnew).1)

theorem Tracked.step (h : s.Tracked) (op : Op) : (s.step op).Tracked := by
  cases op with
  | emit call =>
    obtain ⟨memory, -, hemits, heq⟩ := emit_eq h call
    rw [CountedRing.step, heq]
    exact h.overwrite hemits
  | drain => exact ⟨h.live, h.backed, h.earlier, h.single, h.gone, h.distinct⟩

theorem init_tracked : init.Tracked where
  live := activatedRing_live
  backed index hword := by
    have hzero : ∀ off, 32 ≤ off → activatedRing.word64 off = 0 := by
      intro off hoff
      rw [activatedRing, Memory.word64_write32_of_ne _ _ (by simp; omega),
        Memory.word64_write32_of_ne _ _ (by simp; omega), Memory.word64_write32_of_ne _ _ (by simp; omega),
        Memory.zeroed_word64]
    exact absurd (hzero _ (emitSlot_ge activatedRing index)) hword
  earlier _ _ h := by cases h
  single _ _ _ h := by cases h
  gone _ h := absurd h List.not_mem_nil
  distinct := List.nodup_nil

/-! ## The count -/

/-- Where the record overwritten was not promoted, the count keeps up with the records. -/
theorem bounded_step (h : s.Tracked) (hbounded : s.dropped.toNat ≤ s.overwritten.length) {op : Op}
    (hspares : s.spares op = true) : (s.step op).dropped.toNat ≤ (s.step op).overwritten.length := by
  cases op with
  | drain => exact hbounded
  | emit call =>
    obtain ⟨memory, hemit, -, heq⟩ := emit_eq h call
    rw [step, heq, dropped]
    change (memory.word64 RingControl.dropped).toNat ≤ (s.overwrite memory).overwritten.length
    rw [emit_dropped h.live hemit, overwrite, List.length_append]
    split
    · rename_i hcounts
      obtain ⟨number, hheld⟩ := Option.ne_none_iff_exists'.mp (h.backed _ hcounts.1)
      have hslot : s.held s.nextSlot = some number := hheld
      have hone : ((s.held s.nextSlot).toList.filter fun call => call ∉ s.promoted).length = 1 := by
        rw [spares, hslot] at hspares
        have hkept : number ∉ s.promoted := by simpa using hspares
        rw [hslot, Option.toList_some, List.filter_cons_of_pos (by simpa using hkept)]
        rfl
      have hsucc : (s.dropped + 1).toNat ≤ s.dropped.toNat + 1 := by
        rw [UInt64.toNat_add]
        exact Nat.mod_le _ _
      rw [hone]
      exact Nat.le_trans hsucc (Nat.succ_le_succ hbounded)
    · exact Nat.le_add_right_of_le hbounded

/-- In every history whose calls overwrite no promoted record, `Dropped` counts at most the records that were
overwritten before a drain promoted them. -/
theorem run_countsLost (ops : List Op) (h : Along step (fun s op => s.spares op = true) init ops)
    (before after : List Op) (hops : ops = before ++ after) : (run step init before).Honest := by
  have hbefore : Along step (fun s op => s.spares op = true) init before := by
    rw [hops] at h
    exact (along_append.mp h).1
  have hsteps := hbefore.invariant
    (I := fun s => s.Tracked ∧ s.dropped.toNat ≤ s.overwritten.length)
    (fun s op hs hspares => ⟨hs.1.step op, bounded_step hs.1 hs.2 hspares⟩) ⟨init_tracked, by decide⟩
  exact ⟨hsteps.1.distinct, hsteps.2⟩

/-! ## Laps -/

/-- The slots hold the records of the last lap. -/
structure LastLap (s : CountedRing) : Prop extends Tracked s where
  geometry : s.memory.word32 RingControl.slotCount = 4096
  index : s.memory.word64 RingControl.writeIndex = .ofNat s.calls
  holds : ∀ call < s.calls, s.calls ≤ call + 4096 → s.held (emitSlot s.memory (.ofNat call)) = some call
  words : ∀ slot call, s.held slot = some call →
    slot = emitSlot s.memory (.ofNat call) ∧ s.memory.word64 slot = .ofNat call + 1 ∧ s.calls ≤ call + 4096

theorem LastLap.emitSlot_ofNat (h : s.LastLap) (n : ℕ) : emitSlot s.memory (.ofNat n) = 32 + n % 4096 * 48 := by
  have hcount : s.memory.word32 SensorRingControl.slotCount = 4096 := h.geometry
  have hnat : (4096 : UInt32).toNat = 4096 := by decide
  have hmod : (UInt64.ofNat n).toNat % 4096 = n % 4096 := by
    rw [UInt64.toNat_ofNat']
    omega
  rw [h.live.emitSlot_eq, h.live.drainSlot_eq, hcount, hnat, hmod]

theorem LastLap.nextSlot_eq (h : s.LastLap) : s.nextSlot = emitSlot s.memory (.ofNat s.calls) := by
  rw [nextSlot, h.index]

/-- A slot that holds a record holds the one of a lap before. -/
theorem LastLap.held_nextSlot (h : s.LastLap) {call : ℕ} (hheld : s.held s.nextSlot = some call) :
    s.calls = call + 4096 := by
  have hlt := h.earlier _ _ hheld
  obtain ⟨hslot, -, hle⟩ := h.words _ _ hheld
  rw [h.nextSlot_eq, h.emitSlot_ofNat, h.emitSlot_ofNat] at hslot
  omega

theorem LastLap.overwrite (h : s.LastLap) {memory : Memory} {call : Call} (hemits : Emits s.memory memory call) :
    (s.overwrite memory).LastLap where
  toTracked := h.toTracked.overwrite hemits
  geometry := by
    rw [overwrite_memory, Memory.word32, hemits.frame _ 4 (.inl (by simp)), ← Memory.word32]
    exact h.geometry
  index := by
    rw [overwrite_memory, hemits.writeIndex, h.index, overwrite_calls, UInt64.ofNat_add]
    rfl
  holds := by
    intro number hlt hle
    rw [overwrite_calls] at hlt hle
    rw [overwrite_memory, hemits.emitSlot_eq, overwrite_held]
    obtain hold | hlast := Nat.lt_succ_iff_lt_or_eq.mp hlt
    · have hne : emitSlot s.memory (.ofNat number) ≠ s.nextSlot := by
        rw [h.nextSlot_eq, h.emitSlot_ofNat, h.emitSlot_ofNat]
        omega
      rw [Function.update_of_ne hne]
      exact h.holds number hold (Nat.le_of_succ_le hle)
    · rw [hlast, ← h.nextSlot_eq, Function.update_self]
  words := by
    intro slot number hheld
    rw [overwrite_memory, hemits.emitSlot_eq, overwrite_calls]
    obtain ⟨hslot, hnumber⟩ | ⟨hne, hold⟩ := held_overwrite hheld
    · have hword : memory.word64 s.nextSlot = s.memory.word64 RingControl.writeIndex + 1 := hemits.sequence
      rw [hslot, hnumber, hword, h.index]
      exact ⟨h.nextSlot_eq, rfl, Nat.succ_le_of_lt (Nat.lt_add_of_pos_right (by decide))⟩
    · obtain ⟨hslot, hword, hle⟩ := h.words slot number hold
      have hkept : memory.word64 slot = s.memory.word64 slot := by
        rw [hslot] at hne ⊢
        exact hemits.word64_of_ne h.live hne
      rw [hkept]
      refine ⟨hslot, hword, Nat.succ_le_of_lt (Nat.lt_of_le_of_ne hle fun hlap => hne ?_)⟩
      rw [hslot, h.nextSlot_eq, h.emitSlot_ofNat, h.emitSlot_ofNat, hlap, Nat.add_mod_right]

theorem LastLap.step (h : s.LastLap) (op : Op) : (s.step op).LastLap := by
  cases op with
  | emit call =>
    obtain ⟨memory, -, hemits, heq⟩ := emit_eq h.toTracked call
    rw [CountedRing.step, heq]
    exact h.overwrite hemits
  | drain => exact ⟨h.toTracked.step .drain, h.geometry, h.index, h.holds, h.words⟩

theorem init_lastLap : init.LastLap where
  toTracked := init_tracked
  geometry := by decide
  index := by decide
  holds _ h := absurd h (Nat.not_lt_zero _)
  words _ _ h := by cases h

/-- Before the index wraps, `emit` counts exactly the calls that overwrite a record, promoted or not. -/
theorem LastLap.countsLoss_iff (h : s.LastLap) (hcalls : s.calls < 2 ^ 64) :
    countsLoss s.memory ↔ s.held s.nextSlot ≠ none := by
  constructor
  · exact fun hcounts => h.backed _ hcounts.1
  · intro hheld
    obtain ⟨number, hnumber⟩ := Option.ne_none_iff_exists'.mp hheld
    have hlap := h.held_nextSlot hnumber
    have hword : s.memory.word64 (emitSlot s.memory (s.memory.word64 RingControl.writeIndex)) =
        .ofNat number + 1 := (h.words _ _ hnumber).2.1
    have hnat : (UInt64.ofNat number + 1).toNat = number + 1 := by
      rw [UInt64.toNat_add, UInt64.toNat_ofNat', UInt64.toNat_one]
      omega
    have hdistance : UInt64.ofNat s.calls - (UInt64.ofNat number + 1 - 1) = 4096 := by
      rw [UInt64.add_sub_cancel, hlap, UInt64.ofNat_add, UInt64.add_comm, UInt64.add_sub_cancel]
      rfl
    refine ⟨?_, ?_⟩
    · rw [hword]
      intro hzero
      rw [hzero] at hnat
      exact absurd hnat (Nat.succ_ne_zero number).symm
    · rw [hword, h.index, hdistance, h.geometry]
      decide

/-! ## Exactly -/

/-- Every record that was overwritten is counted, as far as the counter reaches. -/
structure Counting (s : CountedRing) : Prop where
  lastLap : s.LastLap
  counted : s.calls < 2 ^ 64 → s.overwritten.length ≤ s.dropped.toNat ∧ s.dropped.toNat ≤ s.calls

/-- What a call adds to the two counts. -/
theorem Counting.emit_counts (h : s.Counting) (hcalls : s.calls + 1 < 2 ^ 64) (call : Call) :
    (s.emit call).calls = s.calls + 1 ∧
      (s.emit call).dropped.toNat = s.dropped.toNat + (s.held s.nextSlot).toList.length ∧
      (s.emit call).overwritten.length =
        s.overwritten.length + ((s.held s.nextSlot).toList.filter fun call => call ∉ s.promoted).length := by
  obtain ⟨memory, hemit, -, heq⟩ := emit_eq h.lastLap.toTracked call
  have hle := (h.counted (Nat.lt_of_succ_lt hcalls)).2
  rw [heq, dropped, overwrite_memory, emit_dropped h.lastLap.live hemit, overwrite_overwritten, List.length_append]
  refine ⟨s.overwrite_calls memory, ?_, rfl⟩
  have hiff := h.lastLap.countsLoss_iff (Nat.lt_of_succ_lt hcalls)
  cases hheld : s.held s.nextSlot with
  | none =>
    have hnot : ¬ countsLoss s.memory := fun hcounts => hiff.mp hcounts hheld
    rw [if_neg hnot]
    simp [dropped]
  | some number =>
    have hsucc : (s.dropped + 1).toNat = s.dropped.toNat + 1 := by
      rw [UInt64.toNat_add, UInt64.toNat_one]
      omega
    have hcounts : countsLoss s.memory := hiff.mpr (by rw [hheld]; exact Option.some_ne_none number)
    rw [if_pos hcounts, Option.toList_some, List.length_singleton, ← hsucc, dropped]

theorem Counting.step (h : s.Counting) (op : Op) : (s.step op).Counting := by
  refine ⟨h.lastLap.step op, ?_⟩
  cases op with
  | drain => exact h.counted
  | emit call =>
    obtain ⟨memory, -, -, heq⟩ := emit_eq h.lastLap.toTracked call
    intro hcalls
    have hcalls' : s.calls + 1 < 2 ^ 64 := by
      rw [CountedRing.step, heq] at hcalls
      exact hcalls
    obtain ⟨hnext, hdropped, hlength⟩ := h.emit_counts hcalls' call
    obtain ⟨hlow, hhigh⟩ := h.counted (Nat.lt_of_succ_lt hcalls')
    have hfilter := List.length_filter_le (fun call => decide (call ∉ s.promoted)) (s.held s.nextSlot).toList
    have hone := Option.length_toList_le (o := s.held s.nextSlot)
    rw [CountedRing.step, hnext, hdropped, hlength]
    exact ⟨Nat.add_le_add hlow hfilter, Nat.add_le_add hhigh hone⟩

/-- A call keeps the count honest exactly if it overwrites no promoted record. -/
theorem Counting.bounded_iff (h : s.Counting) (hbounded : s.dropped.toNat ≤ s.overwritten.length)
    (hcalls : s.calls + 1 < 2 ^ 64) (call : Call) :
    (s.emit call).dropped.toNat ≤ (s.emit call).overwritten.length ↔ s.spares (.emit call) = true := by
  obtain ⟨-, hdropped, hlength⟩ := h.emit_counts hcalls call
  have hlow := (h.counted (Nat.lt_of_succ_lt hcalls)).1
  rw [hdropped, hlength, spares]
  cases s.held s.nextSlot with
  | none => simpa using hbounded
  | some number =>
    by_cases hpromoted : number ∈ s.promoted
    · simp only [Option.toList_some, List.length_singleton, Option.all_some, hpromoted, not_true_eq_false,
        decide_false, Bool.false_eq_true, iff_false]
      rw [List.filter_cons_of_neg (by simpa using hpromoted), List.filter_nil, List.length_nil]
      omega
    · simp only [Option.toList_some, List.length_singleton, Option.all_some, hpromoted, not_false_eq_true,
        decide_true, iff_true]
      rw [List.filter_cons_of_pos (by simpa using hpromoted), List.filter_nil, List.length_singleton]
      omega

/-- Up to the wrap of the index the condition is exact. -/
theorem along_spares_iff (ops : List Op) :
    Along step (fun s op => s.calls + 1 < 2 ^ 64 → s.spares op = true) init ops ↔
      ∀ before after, ops = before ++ after → (run step init before).calls < 2 ^ 64 →
        (run step init before).dropped.toNat ≤ (run step init before).overwritten.length := by
  refine @along_iff_good _ _ step _ Counting (fun s => s.calls < 2 ^ 64 → s.dropped.toNat ≤ s.overwritten.length)
    (fun _ op h => h.step op) ?_ init ⟨init_lastLap, fun _ => by decide⟩ (fun _ => by decide) ops
  intro s op h hgood
  cases op with
  | drain => exact iff_of_true hgood fun _ => rfl
  | emit call =>
    obtain ⟨memory, -, -, heq⟩ := emit_eq h.lastLap.toTracked call
    have hnext : (s.step (.emit call)).calls = s.calls + 1 := by
      rw [CountedRing.step, heq]
      rfl
    rw [hnext]
    exact imp_congr_right fun hcalls => h.bounded_iff (hgood (Nat.lt_of_succ_lt hcalls)) hcalls call

end

def someCall : Call := ⟨5, 9, 1, 2, 3, 4⟩

theorem firstCalls_countsLost : (run step init [.emit someCall, .drain, .emit someCall]).Honest :=
  run_countsLost _ (by decide +kernel) _ [] rfl

/-- During the first lap nothing is overwritten. -/
theorem firstLap {s : CountedRing} (h : s.LastLap) {n : ℕ} (hcalls : s.calls + n ≤ 4096) :
    (run step s (List.replicate n (.emit someCall))).LastLap ∧
      (run step s (List.replicate n (.emit someCall))).calls = s.calls + n ∧
      (run step s (List.replicate n (.emit someCall))).promoted = s.promoted ∧
      (run step s (List.replicate n (.emit someCall))).overwritten = s.overwritten := by
  induction n generalizing s with
  | zero => exact ⟨h, rfl, rfl, rfl⟩
  | succ n ih =>
    obtain ⟨memory, -, hemits, heq⟩ := emit_eq h.toTracked someCall
    have hnone : s.held s.nextSlot = none := by
      cases hheld : s.held s.nextSlot with
      | none => rfl
      | some call =>
        have hlap := h.held_nextSlot hheld
        omega
    have hcalls' : (s.overwrite memory).calls + n ≤ 4096 := by
      rw [overwrite_calls]
      omega
    obtain ⟨hlast, hcount, hpromoted, hlost⟩ := ih (h.overwrite hemits) hcalls'
    rw [List.replicate_succ, run_cons, step, heq]
    refine ⟨hlast, ?_, hpromoted, ?_⟩
    · rw [hcount, overwrite_calls]
      omega
    · rw [hlost, overwrite_overwritten, hnone]
      simp

/-- The first call is promoted, and counted as lost a lap later. -/
theorem promotedCall_counted :
    ¬ (run step init ([.emit someCall, .drain] ++ List.replicate 4095 (.emit someCall) ++
      [.emit someCall])).Honest := by
  have hops : ∀ ops, (run step init ops).Counting := fun ops =>
    run_invariant (fun _ op h => h.step op) ⟨init_lastLap, fun _ => by decide⟩ ops
  obtain ⟨hlast, hcalls, hpromoted, hlost⟩ :=
    firstLap (hops [.emit someCall, .drain]).lastLap (n := 4095) (by decide +kernel)
  have hcounting := hops ([.emit someCall, .drain] ++ List.replicate 4095 (.emit someCall))
  have hstart : (run step init [.emit someCall, .drain]).calls = 1 ∧
      (run step init [.emit someCall, .drain]).promoted = [0] ∧
      (run step init [.emit someCall, .drain]).overwritten = [] := by decide +kernel
  rw [← run_append] at hlast hcalls hpromoted hlost
  rw [run_append]
  generalize run step init ([.emit someCall, .drain] ++ List.replicate 4095 (.emit someCall)) = s at *
  have hlap : s.calls = 4096 := by rw [hcalls, hstart.1]
  have hheld : s.held s.nextSlot = some 0 := by
    have hsame : emitSlot s.memory (.ofNat 4096) = emitSlot s.memory (.ofNat 0) := by
      rw [hlast.emitSlot_ofNat, hlast.emitSlot_ofNat]
    rw [hlast.nextSlot_eq, hlap, hsame]
    exact hlast.holds 0 (by omega) (by omega)
  obtain ⟨-, hdropped, hlength⟩ := hcounting.emit_counts (by omega) someCall
  intro hhonest
  have hbounded := hhonest.bounded
  rw [run_cons, run_nil, step, hdropped, hlength, hheld, hpromoted, hstart.2.1, hlost, hstart.2.2] at hbounded
  simp at hbounded

end CountedRing

end SecOutfall.Sensor
