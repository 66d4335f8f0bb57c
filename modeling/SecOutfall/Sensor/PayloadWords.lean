import Mathlib.Tactic.IntervalCases
import SecOutfall.Sensor.HonestRing

/-! The six words of a payload: where each lies in a slot, what `emit` puts there and what the drain takes it
for, and which writes leave it alone. -/
namespace SecOutfall.Sensor
set_option autoImplicit false

def wordAt : ℕ → ℕ
  | 0 => 8
  | 1 => 12
  | 2 => 16
  | 3 => 24
  | 4 => 32
  | _ => 40

def wordSize : ℕ → ℕ
  | 0 | 1 => 4
  | _ => 8

def Call.word (call : Call) : ℕ → UInt64
  | 0 => call.api.toUInt64
  | 1 => call.threadId.toUInt64
  | 2 => call.arg0
  | 3 => call.arg1
  | 4 => call.arg2
  | _ => call.arg3

def slotWord (mem : Memory) (slot : ℕ) : ℕ → UInt64
  | 0 => (mem.word32 (slot + 8)).toUInt64
  | 1 => (mem.word32 (slot + 12)).toUInt64
  | 2 => mem.word64 (slot + 16)
  | 3 => mem.word64 (slot + 24)
  | 4 => mem.word64 (slot + 32)
  | _ => mem.word64 (slot + 40)

/-- The drain takes the first word for the thread id and the second for the API. -/
def Promotion.word (p : Promotion) : ℕ → UInt64
  | 0 => p.threadId.toUInt64
  | 1 => p.api.toUInt64
  | 2 => p.arg0
  | 3 => p.arg1
  | 4 => p.arg2
  | _ => p.arg3

/-- Every word is one this call wrote to its place. -/
def Promotion.WrittenBy (p : Promotion) (call : Call) : Prop :=
  p.threadId = call.api ∧ p.api = call.threadId ∧ p.arg0 = call.arg0 ∧ p.arg1 = call.arg1 ∧
    p.arg2 = call.arg2 ∧ p.arg3 = call.arg3

theorem writtenBy_of_words {p : Promotion} {call : Call} (h : ∀ k < 6, p.word k = call.word k) :
    p.WrittenBy call :=
  ⟨UInt32.toUInt64_inj.mp (h 0 (by decide)), UInt32.toUInt64_inj.mp (h 1 (by decide)), h 2 (by decide),
    h 3 (by decide), h 4 (by decide), h 5 (by decide)⟩

theorem words_apart : ∀ i < 6, ∀ k < 6, i ≠ k →
    wordAt i + wordSize i ≤ wordAt k ∨ wordAt k + wordSize k ≤ wordAt i := by
  decide

theorem word_inside : ∀ k < 6, 8 ≤ wordAt k ∧ wordAt k + wordSize k ≤ 48 := by decide

section
variable {mem mem' : Memory} {slot : ℕ}

theorem slotWord_congr {k : ℕ} (hk : k < 6)
    (h : mem'.read (slot + wordAt k) (wordSize k) = mem.read (slot + wordAt k) (wordSize k)) :
    slotWord mem' slot k = slotWord mem slot k := by
  have h32 {off : ℕ} (h : mem'.read off 4 = mem.read off 4) :
      (mem'.word32 off).toUInt64 = (mem.word32 off).toUInt64 := by
    rw [Memory.word32, h, Memory.word32]
  have h64 {off : ℕ} (h : mem'.read off 8 = mem.read off 8) : mem'.word64 off = mem.word64 off := by
    rw [Memory.word64, h, Memory.word64]
  rcases k with _ | _ | _ | _ | _ | _ | k
  iterate 2 · exact h32 h
  iterate 4 · exact h64 h
  · omega

theorem read_writeWord_of_ne (call : Call) {word off n : ℕ} (hword : word < 6)
    (h : off + n ≤ slot + wordAt word ∨ slot + wordAt word + wordSize word ≤ off) :
    (Rings.writeWord mem slot call word).read off n = mem.read off n := by
  match word, hword with
  | 0, _ | 1, _ => exact mem.read_write32_of_ne _ h
  | 2, _ | 3, _ | 4, _ | 5, _ => exact mem.read_write64_of_ne _ h

theorem slotWord_writeWord (call : Call) {k word : ℕ} (hk : k < 6) (hword : word < 6) :
    slotWord (Rings.writeWord mem slot call word) slot k =
      if k = word then call.word word else slotWord mem slot k := by
  by_cases heq : k = word
  · subst heq
    rw [if_pos rfl]
    match k, hk with
    | 0, _ | 1, _ => exact congrArg UInt32.toUInt64 (mem.word32_write32 _ _)
    | 2, _ | 3, _ | 4, _ | 5, _ => exact mem.word64_write64 _ _
  · rw [if_neg heq]
    apply slotWord_congr hk
    apply read_writeWord_of_ne call hword
    have hapart := words_apart k hk word hword heq
    omega

theorem readWord_word (p : Promotion) {k word : ℕ} (hk : k < 6) (hword : word < 6) :
    (Rings.readWord mem slot p word).word k = if k = word then slotWord mem slot word else p.word k := by
  by_cases heq : k = word
  · subst heq
    rw [if_pos rfl]
    interval_cases k <;> rfl
  · rw [if_neg heq]
    interval_cases word <;> interval_cases k <;> first | exact absurd rfl heq | simp only [Rings.readWord, Promotion.word]

/-- The sequence words and the control block are apart from every payload. -/
theorem slotWord_write64 (v : UInt64) {off : ℕ} (h : off + 8 ≤ 32 ∨ ∃ j, off = slotAt j) (i : ℕ) {k : ℕ}
    (hk : k < 6) : slotWord (mem.write64 off v) (slotAt i) k = slotWord mem (slotAt i) k := by
  have hinside := word_inside k hk
  apply slotWord_congr hk
  apply mem.read_write64_of_ne
  obtain hcontrol | ⟨j, rfl⟩ := h
  · simp only [slotAt]
    omega
  · simp only [slotAt]
    omega

theorem slotWord_writeWord_of_ne (call : Call) {i j : ℕ} (hne : i ≠ j) {k word : ℕ} (hk : k < 6)
    (hword : word < 6) : slotWord (Rings.writeWord mem (slotAt j) call word) (slotAt i) k = slotWord mem (slotAt i) k := by
  have hread := word_inside k hk
  have hwritten := word_inside word hword
  apply slotWord_congr hk
  apply read_writeWord_of_ne call hword
  simp only [slotAt]
  omega

end

end SecOutfall.Sensor
