import SecOutfall.Sensor.DrainCounters

/-! What becomes of every index of a ring.

Under drains that do not overlap, an index is promoted at most once and cursors only move on;
under sequential drains, every index below a cursor is accounted for. -/
namespace SecOutfall.Sensor
open Segments Runs
set_option autoImplicit false

/-! ## Readings of the history -/

def Consumed.promotion? : Consumed → Option (ℕ × UInt64)
  | .promoted ref p => some (ref.va, p.index)
  | .dropped _ _ _ => none

def Consumed.range? : Consumed → Option (ℕ × UInt64 × UInt64)
  | .promoted _ _ => none
  | .dropped va start stop => some (va, start, stop)

/-- The BehaviorCall records emitted, as ring and index. -/
def Rings.promoted (s : Rings) : List (ℕ × UInt64) := s.consumed.filterMap Consumed.promotion?

def promotedFrom (evs : List Consumed) (va : ℕ) : List UInt64 :=
  ((evs.filterMap Consumed.promotion?).filter fun p => p.1 = va).map Prod.snd

/-- The ranges of a ring that overflow resyncs jumped over. -/
def droppedFrom (evs : List Consumed) (va : ℕ) : List (UInt64 × UInt64) :=
  ((evs.filterMap Consumed.range?).filter fun r => r.1 = va).map Prod.snd

def lengths (ranges : List (UInt64 × UInt64)) : ℕ := (ranges.map fun r => r.2.toNat - r.1.toNat).sum

section
variable (evs : List Consumed) (va : ℕ)

@[simp] theorem promotedFrom_promoted (ref : RingRef) (p : Promotion) :
    promotedFrom (.promoted ref p :: evs) va =
      if ref.va = va then p.index :: promotedFrom evs va else promotedFrom evs va := by
  by_cases hva : ref.va = va
  · simp [promotedFrom, Consumed.promotion?, hva]
  · simp [promotedFrom, Consumed.promotion?, hva]

@[simp] theorem promotedFrom_dropped (va' : ℕ) (start stop : UInt64) :
    promotedFrom (.dropped va' start stop :: evs) va = promotedFrom evs va := rfl

@[simp] theorem droppedFrom_promoted (ref : RingRef) (p : Promotion) :
    droppedFrom (.promoted ref p :: evs) va = droppedFrom evs va := rfl

@[simp] theorem droppedFrom_dropped (va' : ℕ) (start stop : UInt64) :
    droppedFrom (.dropped va' start stop :: evs) va =
      if va' = va then (start, stop) :: droppedFrom evs va else droppedFrom evs va := by
  by_cases hva : va' = va
  · simp [droppedFrom, Consumed.range?, hva]
  · simp [droppedFrom, Consumed.range?, hva]

@[simp] theorem lengths_cons (start stop : UInt64) (ranges : List (UInt64 × UInt64)) :
    lengths ((start, stop) :: ranges) = stop.toNat - start.toNat + lengths ranges := by
  simp [lengths]

theorem sum_segments :
    (((evs.map Consumed.segment).filter fun seg => seg.key = va).map Segment.length).sum =
      (promotedFrom evs va).length + lengths (droppedFrom evs va) := by
  induction evs with
  | nil => rfl
  | cons ev evs ih =>
    cases ev with
    | promoted ref p =>
      by_cases hva : ref.va = va
      · simp [Consumed.segment, Segment.length, hva, ih]
        omega
      · simp [Consumed.segment, hva, ih]
    | dropped va' start stop =>
      by_cases hva : va' = va
      · simp [Consumed.segment, Segment.length, hva, ih]
        omega
      · simp [Consumed.segment, hva, ih]

theorem count_segments (i : UInt64) :
    (evs.map Consumed.segment).countP
        (fun seg => seg.key = va ∧ seg.start ≤ i.toNat ∧ i.toNat < seg.stop) =
      (promotedFrom evs va).count i + (droppedFrom evs va).countP fun r => r.1 ≤ i ∧ i < r.2 := by
  induction evs with
  | nil => rfl
  | cons ev evs ih =>
    rw [List.map_cons, List.countP_cons, ih]
    cases ev with
    | promoted ref p =>
      by_cases hva : ref.va = va
      · have hindex : p.index.toNat ≤ i.toNat ∧ i.toNat < p.index.toNat + 1 ↔ p.index = i := by
          rw [← UInt64.toNat_inj]
          omega
        rw [promotedFrom_promoted, if_pos hva, List.count_cons]
        simp only [Consumed.segment, hva, true_and, hindex, beq_iff_eq, decide_eq_true_eq,
          droppedFrom_promoted]
        omega
      · simp [Consumed.segment, hva]
    | dropped va' start stop =>
      by_cases hva : va' = va
      · simp [Consumed.segment, hva, List.countP_cons, UInt64.le_iff_toNat_le, UInt64.lt_iff_toNat_lt]
        omega
      · simp [Consumed.segment, hva]

end

section
variable {evs : List Consumed}

end

/-! ## Cursors -/

/-- The same entry with a cursor that did not move back. -/
def RingEntry.Advanced (a b : RingEntry) : Prop :=
  b = { a with ringDrainIndex := b.ringDrainIndex } ∧ a.ringDrainIndex ≤ b.ringDrainIndex

theorem RingEntry.Advanced.refl (a : RingEntry) : a.Advanced a := ⟨rfl, UInt64.le_refl _⟩

theorem RingEntry.Advanced.trans {a b c : RingEntry} (h : a.Advanced b) (h' : b.Advanced c) :
    a.Advanced c := by
  refine ⟨?_, UInt64.le_trans h.2 h'.2⟩
  rw [h'.1, h.1]

section
variable {s : Rings} {op : RingStep}

end

/-! ## Concurrent drains -/

/-- The condition on a step under which concurrent drains keep their promises. -/
def Exclusive (s : Rings) (op : RingStep) : Prop := NoOverlap s op ∧ NoLostUpdate s op ∧ Monotonic s op

structure Concurrent (s : Rings) : Prop where
  aligned : Aligned s s.drains
  drained : drainedTally.Balanced s s.drains

theorem Concurrent.step {s : Rings} {op : RingStep} (h : Concurrent s) (hop : Exclusive s op) :
    Concurrent (s.step op) :=
  ⟨h.aligned.step hop.1 hop.2.2, drained_balanced_step h.aligned h.drained hop.2.1⟩

/-- One process with an activated ring. -/
def oneRing : Setup where
  ledger := [⟨true, some 1, 0, 7, 0⟩]
  distinct := by decide
  fresh := by decide

/-- A call, and as many steps as `emit` takes. -/
def oneEmit : List RingStep := .emit 1 ⟨5, 9, 1, 2, 3, 4⟩ :: List.replicate 9 (.produce 0)

instance (s : Rings) (op : RingStep) : Decidable (NoOverlap s op) :=
  match op with
  | .drain => inferInstanceAs (Decidable (∀ ref ∈ Rings.ringRefs s.ledger, ref.va ∉ heldRings s.drains))
  | .emit _ _ | .produce _ | .advance _ => isTrue trivial

instance (s : Rings) : (d : Drain) → Decidable (d.DrainedFresh s)
  | ⟨_, .exchangeDrained total, drainedTotal, _⟩ =>
    inferInstanceAs (Decidable (total = s.sensorEventsDrained + drainedTotal))
  | ⟨_, .ring, _, _⟩ | ⟨_, .slots _ _ _, _, _⟩ | ⟨_, .payload _ _ _ _ _ _, _, _⟩
  | ⟨_, .writeBack _, _, _⟩ | ⟨_, .readDrained, _, _⟩ | ⟨_, .readDropped, _, _⟩
  | ⟨_, .exchangeDropped _, _, _⟩ | ⟨_, .faulted, _, _⟩ => isTrue trivial

instance (s : Rings) (op : RingStep) : Decidable (NoLostUpdate s op) :=
  match op with
  | .advance k => inferInstanceAs (Decidable (∀ d ∈ s.drains[k]?, d.DrainedFresh s))
  | .emit _ _ | .produce _ | .drain => isTrue trivial

instance (s : Rings) (op : RingStep) : Decidable (Monotonic s op) :=
  match op with
  | .emit va _ => inferInstanceAs (Decidable (asI64 ((s.memory va).word64 SensorRingControl.writeIndex) <
      asI64 ((s.memory va).word64 SensorRingControl.writeIndex + 1)))
  | .produce _ | .drain | .advance _ => isTrue trivial

instance (s : Rings) (op : RingStep) : Decidable (Exclusive s op) :=
  inferInstanceAs (Decidable (_ ∧ _))

structure Accounted (s : Rings) : Prop where
  aligned : Aligned s s.drains
  lone : Lone s
  dropped : droppedTally.Balanced s s.drains

theorem Accounted.step {s : Rings} {op : RingStep} (h : Accounted s) (hseq : Sequential s op)
    (hmono : Monotonic s op) : Accounted (s.step op) where
  aligned := h.aligned.step hseq.noOverlap hmono
  lone := h.lone.step h.aligned hseq
  dropped := dropped_balanced_step h.aligned h.lone h.dropped

/-- What a ring's cursor says once no drain is in flight. -/
structure CursorAccounts (s : Rings) (va : ℕ) (index : UInt64) : Prop where
  total : index.toNat = (promotedFrom s.consumed va).length + lengths (droppedFrom s.consumed va)
  once : ∀ i < index, (promotedFrom s.consumed va).count i +
    (droppedFrom s.consumed va).countP (fun r => r.1 ≤ i ∧ i < r.2) = 1

theorem Accounted.cursor {s : Rings} (h : Accounted s) (hnone : s.drains = []) {entry : RingEntry}
    (hentry : entry ∈ s.ledger) {va : ℕ} (hva : entry.ringKernelVa = some va) :
    CursorAccounts s va entry.ringDrainIndex := by
  have hindex : entry.ringDrainIndex.toNat = s.position va := by
    apply h.aligned.idle entry hentry va hva
    rw [hnone]
    exact List.not_mem_nil
  refine ⟨?_, ?_⟩
  · rw [hindex, ← sum_segments]
    exact (h.aligned.consecutive.sum_length va).symm
  · intro i hi
    have hlt : i.toNat < s.position va := by
      rw [← hindex]
      exact UInt64.lt_iff_toNat_lt.mp hi
    rw [← count_segments, h.aligned.consecutive.covered_once]
    exact if_pos hlt


/-- Everything overflow resyncs jumped over, in all rings. -/
def Rings.dropped (s : Rings) : List (UInt64 × UInt64) :=
  (s.consumed.filterMap Consumed.range?).map Prod.snd

instance (s : Rings) (op : RingStep) : Decidable (Sequential s op) :=
  match op with
  | .drain => inferInstanceAs (Decidable (s.drains = []))
  | .emit _ _ | .produce _ | .advance _ => isTrue trivial

end SecOutfall.Sensor
