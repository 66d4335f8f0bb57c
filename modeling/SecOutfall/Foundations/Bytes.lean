import Mathlib.Tactic.Ring
import Mathlib.Data.List.GetD

/-! Little-endian words, byte regions of a flat buffer, and stores into it.

A buffer is a list of bytes. `store` overwrites a region and never changes the length; `Holds`
says that a region reads as a given word. The rules about `Holds` are all a proof about an
encoder needs: a store puts its own bytes there, keeps every disjoint region, and a region of a
buffer is a region of every extension of it. -/
namespace SecOutfall.Bytes
set_option autoImplicit false

/-! ## Words -/

def leBytes : ℕ → ℕ → List UInt8
  | 0, _ => []
  | n + 1, v => UInt8.ofNat v :: leBytes n (v / 256)

def leValue : List UInt8 → ℕ
  | [] => 0
  | b :: bs => b.toNat + 256 * leValue bs

@[simp] theorem leBytes_length (n v : ℕ) : (leBytes n v).length = n := by
  induction n generalizing v with
  | zero => rfl
  | succ n ih => simp [leBytes, ih]

theorem leValue_leBytes (n v : ℕ) : leValue (leBytes n v) = v % 256 ^ n := by
  induction n generalizing v with
  | zero => simp [leBytes, leValue, Nat.mod_one]
  | succ n ih =>
    have hb : (UInt8.ofNat v).toNat = v % 256 := by simp
    rw [leBytes, leValue, ih, hb, pow_succ', Nat.mod_mul]

theorem leBytes_mod (n v : ℕ) : leBytes n (v % 256 ^ n) = leBytes n v := by
  induction n generalizing v with
  | zero => rfl
  | succ n ih =>
    have hlow : UInt8.ofNat (v % 256 ^ (n + 1)) = UInt8.ofNat v := by
      apply UInt8.toNat_inj.mp
      rw [UInt8.toNat_ofNat', UInt8.toNat_ofNat']
      exact Nat.mod_mod_of_dvd v (dvd_pow_self 256 (Nat.succ_ne_zero n))
    have hhigh : v % 256 ^ (n + 1) / 256 = v / 256 % 256 ^ n := by
      rw [pow_succ', Nat.mod_mul_right_div_self]
    rw [leBytes, leBytes, hlow, hhigh, ih]

theorem leBytes_leValue (bs : List UInt8) : leBytes bs.length (leValue bs) = bs := by
  induction bs with
  | nil => rfl
  | cons b bs ih =>
    have hb : b.toNat < 256 := b.toNat_lt
    have hlow : UInt8.ofNat (b.toNat + 256 * leValue bs) = b := by
      apply UInt8.toNat_inj.mp
      rw [UInt8.toNat_ofNat']
      omega
    have hhigh : (b.toNat + 256 * leValue bs) / 256 = leValue bs := by omega
    rw [List.length_cons, leValue, leBytes, hlow, hhigh, ih]

/-! ## Regions -/

/-- The `n` bytes of `buf` from `off` on (fewer when the buffer ends before). -/
def slice (buf : List UInt8) (off n : ℕ) : List UInt8 := (buf.drop off).take n

theorem slice_getElem? (buf : List UInt8) (off n i : ℕ) :
    (slice buf off n)[i]? = if i < n then buf[off + i]? else none := by
  simp [slice, List.getElem?_take, List.getElem?_drop]

/-- Overwrite the region at `off` with `bs`; bytes past the end of the buffer are dropped. -/
def store (buf : List UInt8) (off : ℕ) (bs : List UInt8) : List UInt8 :=
  buf.mapIdx fun i b => if off ≤ i then bs.getD (i - off) b else b

@[simp] theorem store_length (buf : List UInt8) (off : ℕ) (bs : List UInt8) :
    (store buf off bs).length = buf.length := by
  simp [store]

theorem store_getElem? (buf : List UInt8) (off : ℕ) (bs : List UInt8) (i : ℕ) :
    (store buf off bs)[i]? =
      buf[i]?.map fun b => if off ≤ i then bs.getD (i - off) b else b := by
  simp [store, List.getElem?_mapIdx]

def Holds (buf : List UInt8) (off : ℕ) (bs : List UInt8) : Prop :=
  off + bs.length ≤ buf.length ∧ slice buf off bs.length = bs

theorem Holds.getElem? {buf : List UInt8} {off : ℕ} {bs : List UInt8} (h : Holds buf off bs)
    {i : ℕ} (hi : i < bs.length) : buf[off + i]? = bs[i]? := by
  have hs := slice_getElem? buf off bs.length i
  rw [h.2, if_pos hi] at hs
  exact hs.symm

theorem holds_of_getElem? {buf : List UInt8} {off : ℕ} {bs : List UInt8}
    (hlen : off + bs.length ≤ buf.length) (h : ∀ i < bs.length, buf[off + i]? = bs[i]?) :
    Holds buf off bs := by
  refine ⟨hlen, List.ext_getElem? fun i => ?_⟩
  rw [slice_getElem?]
  by_cases hi : i < bs.length
  · rw [if_pos hi, h i hi]
  · rw [if_neg hi, List.getElem?_eq_none (by omega)]

theorem holds_nil {buf : List UInt8} {off : ℕ} (h : off ≤ buf.length) : Holds buf off [] :=
  ⟨by simpa using h, by simp [slice]⟩

theorem holds_replicate {total off n : ℕ} (b : UInt8) (h : off + n ≤ total) :
    Holds (List.replicate total b) off (List.replicate n b) := by
  apply holds_of_getElem? (by simpa using h)
  intro i hi
  simp only [List.length_replicate] at hi
  rw [List.getElem?_replicate_of_lt (by omega), List.getElem?_replicate_of_lt hi]

theorem Holds.uncons {buf : List UInt8} {off : ℕ} {b : UInt8} {bs : List UInt8}
    (h : Holds buf off (b :: bs)) : Holds buf off [b] ∧ Holds buf (off + 1) bs := by
  have hlen := h.1
  simp only [List.length_cons] at hlen
  refine ⟨holds_of_getElem? (by simp only [List.length_singleton]; omega) fun i hi => ?_,
    holds_of_getElem? (by omega) fun i hi => ?_⟩
  · have h0 : i = 0 := by simpa using hi
    subst h0
    exact h.getElem? (i := 0) (by simp)
  · have e : off + 1 + i = off + (i + 1) := by omega
    rw [e, h.getElem? (i := i + 1) (by simpa using hi), List.getElem?_cons_succ]

theorem holds_store {buf : List UInt8} {off : ℕ} {bs : List UInt8}
    (h : off + bs.length ≤ buf.length) : Holds (store buf off bs) off bs := by
  apply holds_of_getElem? (by simpa using h)
  intro i hi
  rw [store_getElem?, List.getElem?_eq_getElem (show off + i < buf.length by omega)]
  simp [List.getElem?_eq_getElem hi]

theorem Holds.store_eq {buf : List UInt8} {off : ℕ} {bs : List UInt8} (h : Holds buf off bs) :
    Bytes.store buf off bs = buf := by
  apply List.ext_getElem?
  intro i
  rw [store_getElem?]
  by_cases hin : off ≤ i ∧ i - off < bs.length
  · have e : buf[i]? = bs[i - off]? := by
      have hget := h.getElem? hin.2
      rwa [Nat.add_sub_cancel' hin.1] at hget
    rw [e, List.getElem?_eq_getElem hin.2, Option.map_some, if_pos hin.1]
    simp [List.getD_eq_getElem?_getD, List.getElem?_eq_getElem hin.2]
  · cases hb : buf[i]? with
    | none => rfl
    | some b =>
      rw [Option.map_some]
      by_cases hle : off ≤ i
      · rw [if_pos hle, List.getD_eq_default _ _ (by omega)]
      · rw [if_neg hle]

theorem Holds.store {buf : List UInt8} {off : ℕ} {bs : List UInt8} (h : Holds buf off bs)
    {off' : ℕ} {cs : List UInt8} (hd : off + bs.length ≤ off' ∨ off' + cs.length ≤ off) :
    Holds (store buf off' cs) off bs := by
  apply holds_of_getElem? (by simpa using h.1)
  intro i hi
  rw [store_getElem?, h.getElem? hi, List.getElem?_eq_getElem hi, Option.map_some]
  by_cases hle : off' ≤ off + i
  · rw [if_pos hle, List.getD_eq_default _ _ (by omega)]
  · rw [if_neg hle]

theorem Holds.append {buf : List UInt8} {off : ℕ} {bs : List UInt8} (h : Holds buf off bs)
    (tail : List UInt8) : Holds (buf ++ tail) off bs := by
  have hlen := h.1
  apply holds_of_getElem? (by simp only [List.length_append]; omega)
  intro i hi
  rw [List.getElem?_append_left (by omega), h.getElem? hi]

theorem Holds.take {buf : List UInt8} {off : ℕ} {bs : List UInt8} (h : Holds buf off bs) {n : ℕ}
    (hn : off + bs.length ≤ n) : Holds (buf.take n) off bs := by
  have hlen := h.1
  apply holds_of_getElem? (by rw [List.length_take]; omega)
  intro i hi
  rw [List.getElem?_take_of_lt (by omega), h.getElem? hi]

theorem holds_slice {buf : List UInt8} {off n : ℕ} (h : off + n ≤ buf.length) :
    Holds buf off (slice buf off n) := by
  have hlen : (slice buf off n).length = n := by simp only [slice, List.length_take, List.length_drop]; omega
  exact ⟨by omega, by rw [hlen]⟩

/-! ## Sequences of writes -/

structure Write where
  off : ℕ
  bytes : List UInt8
  deriving DecidableEq, Repr

def writeAll (buf : List UInt8) (ws : List Write) : List UInt8 :=
  ws.foldl (fun b w => store b w.off w.bytes) buf

@[simp] theorem writeAll_length (buf : List UInt8) (ws : List Write) :
    (writeAll buf ws).length = buf.length := by
  induction ws generalizing buf with
  | nil => rfl
  | cons w ws ih => rw [writeAll, List.foldl_cons, ← writeAll, ih, store_length]

theorem writeAll_append (buf : List UInt8) (ws vs : List Write) :
    writeAll buf (ws ++ vs) = writeAll (writeAll buf ws) vs := List.foldl_append

theorem writeAll_store (buf : List UInt8) (ws : List Write) (off : ℕ) (bytes : List UInt8) :
    writeAll buf (ws ++ [⟨off, bytes⟩]) = store (writeAll buf ws) off bytes :=
  writeAll_append buf ws [⟨off, bytes⟩]

/-- The writes go upwards from `pos` and end by `stop`. -/
def Laid : ℕ → List Write → ℕ → Prop
  | pos, [], stop => pos ≤ stop
  | pos, w :: ws, stop => pos ≤ w.off ∧ Laid (w.off + w.bytes.length) ws stop

theorem Laid.le {pos stop : ℕ} {ws : List Write} (h : Laid pos ws stop) : pos ≤ stop := by
  induction ws generalizing pos with
  | nil => exact h
  | cons w ws ih =>
    have hw := ih h.2
    have hp := h.1
    omega

theorem Laid.end_le {pos stop : ℕ} {ws : List Write} (h : Laid pos ws stop) :
    ∀ w ∈ ws, w.off + w.bytes.length ≤ stop := by
  induction ws generalizing pos with
  | nil => intro w hw; exact absurd hw List.not_mem_nil
  | cons v ws ih =>
    intro w hw
    rcases List.mem_cons.mp hw with rfl | hmem
    · exact Laid.le h.2
    · exact ih h.2 w hmem

theorem Holds.writeAll {buf : List UInt8} {off : ℕ} {bs : List UInt8} (h : Holds buf off bs)
    {pos stop : ℕ} {ws : List Write} (hl : Laid pos ws stop) (hp : off + bs.length ≤ pos) :
    Holds (writeAll buf ws) off bs := by
  induction ws generalizing buf pos with
  | nil => exact h
  | cons w ws ih =>
    have hw : off + bs.length ≤ w.off := le_trans hp hl.1
    exact ih (h.store (Or.inl hw)) hl.2 (by omega)

theorem Holds.writeAll_above (pos : ℕ) {buf : List UInt8} {off : ℕ} {bs : List UInt8}
    (h : Holds buf off bs) {stop : ℕ} {ws : List Write} (hl : Laid pos ws stop) (hs : stop ≤ off) :
    Holds (Bytes.writeAll buf ws) off bs := by
  induction ws generalizing buf pos with
  | nil => exact h
  | cons w ws ih =>
    have hw : w.off + w.bytes.length ≤ off := le_trans (Laid.le hl.2) hs
    exact ih _ (h.store (Or.inr hw)) hl.2

/-- After upward writes that fit, every one of them reads back. -/
theorem holds_writeAll {buf : List UInt8} {pos stop : ℕ} {ws : List Write}
    (hl : Laid pos ws stop) (hs : stop ≤ buf.length) :
    ∀ w ∈ ws, Holds (Bytes.writeAll buf ws) w.off w.bytes := by
  induction ws generalizing buf pos with
  | nil => intro w hw; exact absurd hw List.not_mem_nil
  | cons v ws ih =>
    have hend : v.off + v.bytes.length ≤ stop := Laid.le hl.2
    intro w hw
    rcases List.mem_cons.mp hw with rfl | hmem
    · exact (holds_store (by omega)).writeAll hl.2 le_rfl
    · exact ih hl.2 (by simpa using hs) w hmem

/-! Writes in any order, as long as no two of them meet. -/

theorem Holds.writeAll_of_apart {buf : List UInt8} {off : ℕ} {bs : List UInt8} (h : Holds buf off bs)
    {ws : List Write} (hd : ∀ w ∈ ws, off + bs.length ≤ w.off ∨ w.off + w.bytes.length ≤ off) :
    Holds (Bytes.writeAll buf ws) off bs := by
  induction ws generalizing buf with
  | nil => exact h
  | cons w ws ih =>
    apply ih (h.store (hd w List.mem_cons_self))
    intro v hv
    exact hd v (List.mem_cons_of_mem w hv)

def Write.span (w : Write) : ℕ × ℕ := (w.off, w.off + w.bytes.length)

def Apart (a b : ℕ × ℕ) : Prop := a.2 ≤ b.1 ∨ b.2 ≤ a.1

instance (a b : ℕ × ℕ) : Decidable (Apart a b) := inferInstanceAs (Decidable (a.2 ≤ b.1 ∨ b.2 ≤ a.1))

theorem holds_writeAll_of_pairwise {buf : List UInt8} {ws : List Write}
    (hd : (ws.map Write.span).Pairwise Apart) (hs : ∀ a ∈ ws.map Write.span, a.2 ≤ buf.length) :
    ∀ w ∈ ws, Holds (Bytes.writeAll buf ws) w.off w.bytes := by
  induction ws generalizing buf with
  | nil => intro w hw; exact absurd hw List.not_mem_nil
  | cons v ws ih =>
    simp only [List.map_cons, List.pairwise_cons, List.mem_map, forall_exists_index, and_imp,
      forall_apply_eq_imp_iff₂, List.forall_mem_cons] at hd hs
    intro w hw
    rcases List.mem_cons.mp hw with rfl | hmem
    · apply (holds_store hs.1).writeAll_of_apart
      intro u hu
      exact hd.1 u hu
    · apply ih hd.2 _ w hmem
      simpa using hs.2

end SecOutfall.Bytes
