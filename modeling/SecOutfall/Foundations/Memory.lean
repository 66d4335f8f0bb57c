import SecOutfall.Foundations.Bytes

/-! Flat byte memory: words at an offset, and what a write keeps. -/
namespace SecOutfall
open Bytes
set_option autoImplicit false

/-- The bytes of a mapped region, by offset from its base. Offsets past the end of the region read
whatever the address space has there. -/
def Memory := ℕ → UInt8

namespace Memory

def zeroed : Memory := fun _ => 0

def read (m : Memory) (off n : ℕ) : List UInt8 := (List.range n).map fun i => m (off + i)

def write (m : Memory) (off : ℕ) (bs : List UInt8) : Memory := fun i =>
  if off ≤ i ∧ i < off + bs.length then bs.getD (i - off) 0 else m i

theorem read_getElem? (m : Memory) (off n i : ℕ) :
    (m.read off n)[i]? = if i < n then some (m (off + i)) else none := by
  by_cases h : i < n <;> simp [read, h]

theorem read_take (m : Memory) (off : ℕ) {k n : ℕ} (h : k ≤ n) : (m.read off n).take k = m.read off k := by
  rw [read, ← List.map_take, List.take_range, Nat.min_eq_left h, read]

theorem read_drop (m : Memory) (off k n : ℕ) : (m.read off (k + n)).drop k = m.read (off + k) n := by
  apply List.ext_getElem?
  intro i
  rw [List.getElem?_drop, read_getElem?, read_getElem?]
  simp only [Nat.add_lt_add_iff_left, Nat.add_assoc]

theorem read_write (m : Memory) (off : ℕ) (bs : List UInt8) :
    (m.write off bs).read off bs.length = bs := by
  apply List.ext_getElem?
  intro i
  rw [read_getElem?]
  by_cases h : i < bs.length
  · rw [if_pos h, write, if_pos (by omega), Nat.add_sub_cancel_left, List.getElem?_eq_getElem h]
    simp [List.getD_eq_getElem?_getD, List.getElem?_eq_getElem h]
  · rw [if_neg h, List.getElem?_eq_none (by omega)]

theorem read_write_of_disjoint (m : Memory) {off n off' : ℕ} {bs : List UInt8}
    (h : off + n ≤ off' ∨ off' + bs.length ≤ off) :
    (m.write off' bs).read off n = m.read off n := by
  apply List.ext_getElem?
  intro i
  rw [read_getElem?, read_getElem?]
  by_cases hi : i < n
  · rw [if_pos hi, if_pos hi, write, if_neg (by omega)]
  · rw [if_neg hi, if_neg hi]

theorem read_eq_iff {m m' : Memory} {off n : ℕ} :
    m.read off n = m'.read off n ↔ ∀ i < n, m (off + i) = m' (off + i) := by
  rw [read, read, List.map_inj_left]
  simp only [List.mem_range]

/-- Memories that agree on a region agree on each of its parts. -/
theorem read_part {m m' : Memory} {off n : ℕ} (h : m.read off n = m'.read off n) {k l : ℕ} (hk : k + l ≤ n) :
    m.read (off + k) l = m'.read (off + k) l := by
  rw [read_eq_iff] at h ⊢
  intro i hi
  rw [Nat.add_assoc]
  exact h (k + i) (by omega)

/-! ## Several writes -/

def writeAll (m : Memory) (ws : List Write) : Memory := ws.foldl (fun m w => m.write w.off w.bytes) m

theorem read_writeAll_of_apart (m : Memory) {off n : ℕ} {ws : List Write}
    (h : ∀ w ∈ ws, Apart (off, off + n) w.span) : (m.writeAll ws).read off n = m.read off n := by
  induction ws generalizing m with
  | nil => rfl
  | cons w ws ih =>
    show ((m.write w.off w.bytes).writeAll ws).read off n = _
    rw [ih _ fun v hv => h v (List.mem_cons_of_mem _ hv)]
    exact read_write_of_disjoint m (h w (List.mem_cons_self ..))

/-- Writes of which no two meet all read back. -/
theorem read_writeAll (m : Memory) {ws : List Write} (h : (ws.map Write.span).Pairwise Apart) :
    ∀ w ∈ ws, (m.writeAll ws).read w.off w.bytes.length = w.bytes := by
  induction ws generalizing m with
  | nil => intro w hw; exact absurd hw List.not_mem_nil
  | cons v ws ih =>
    rw [List.map_cons, List.pairwise_cons] at h
    intro w hw
    show ((m.write v.off v.bytes).writeAll ws).read w.off w.bytes.length = w.bytes
    rcases List.mem_cons.mp hw with rfl | hmem
    · rw [read_writeAll_of_apart]
      · exact read_write m w.off w.bytes
      · intro u hu
        exact h.1 u.span (List.mem_map_of_mem hu)
    · exact ih _ h.2 w hmem

/-! ## Words -/

def word32 (m : Memory) (off : ℕ) : UInt32 := .ofNat (leValue (m.read off 4))
def word64 (m : Memory) (off : ℕ) : UInt64 := .ofNat (leValue (m.read off 8))

theorem zeroed_word64 (off : ℕ) : zeroed.word64 off = 0 := by
  have hread : zeroed.read off 8 = List.replicate 8 0 := rfl
  rw [word64, hread]
  rfl

def write32 (m : Memory) (off : ℕ) (v : UInt32) : Memory := m.write off (leBytes 4 v.toNat)
def write64 (m : Memory) (off : ℕ) (v : UInt64) : Memory := m.write off (leBytes 8 v.toNat)

theorem word32_write32 (m : Memory) (off : ℕ) (v : UInt32) : (m.write32 off v).word32 off = v := by
  have h := m.read_write off (leBytes 4 v.toNat)
  rw [leBytes_length] at h
  simp [word32, write32, h, leValue_leBytes]

theorem word64_write64 (m : Memory) (off : ℕ) (v : UInt64) : (m.write64 off v).word64 off = v := by
  have h := m.read_write off (leBytes 8 v.toNat)
  rw [leBytes_length] at h
  simp [word64, write64, h, leValue_leBytes]

theorem read_write32_of_ne (m : Memory) {off n off' : ℕ} (v : UInt32)
    (h : off + n ≤ off' ∨ off' + 4 ≤ off) : (m.write32 off' v).read off n = m.read off n :=
  read_write_of_disjoint m (by simpa using h)

theorem read_write64_of_ne (m : Memory) {off n off' : ℕ} (v : UInt64)
    (h : off + n ≤ off' ∨ off' + 8 ≤ off) : (m.write64 off' v).read off n = m.read off n :=
  read_write_of_disjoint m (by simpa using h)

theorem word32_write32_of_ne (m : Memory) {off off' : ℕ} (v : UInt32)
    (h : off + 4 ≤ off' ∨ off' + 4 ≤ off) : (m.write32 off' v).word32 off = m.word32 off := by
  rw [word32, read_write32_of_ne m v h, word32]

theorem word32_write64_of_ne (m : Memory) {off off' : ℕ} (v : UInt64)
    (h : off + 4 ≤ off' ∨ off' + 8 ≤ off) : (m.write64 off' v).word32 off = m.word32 off := by
  rw [word32, read_write64_of_ne m v h, word32]

theorem word64_write32_of_ne (m : Memory) {off off' : ℕ} (v : UInt32)
    (h : off + 8 ≤ off' ∨ off' + 4 ≤ off) : (m.write32 off' v).word64 off = m.word64 off := by
  rw [word64, read_write32_of_ne m v h, word64]

theorem word64_write64_of_ne (m : Memory) {off off' : ℕ} (v : UInt64)
    (h : off + 8 ≤ off' ∨ off' + 8 ≤ off) : (m.write64 off' v).word64 off = m.word64 off := by
  rw [word64, read_write64_of_ne m v h, word64]

end Memory

end SecOutfall
