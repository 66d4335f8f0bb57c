import Mathlib.Data.List.Nodup
import Mathlib.Data.List.Perm.Basic
import SecOutfall.Foundations.Segments
import SecOutfall.Sensor.HonestRing

/-! Cursors of drains that do not overlap on a ring.

The history of a ring is the tiling of its indices into promoted ones and dropped ranges. As long
as no drain snapshots a ring that another one has not written back yet, every cursor in use for a
ring stands where its history ends. -/
namespace SecOutfall.Sensor
open Segments Runs
set_option autoImplicit false

/-! ## The history of a ring -/

def Consumed.segment : Consumed → Segment ℕ
  | .promoted ref p => ⟨ref.va, p.index.toNat, p.index.toNat + 1⟩
  | .dropped va start stop => ⟨va, start.toNat, stop.toNat⟩

/-- The index up to which a ring has been consumed. -/
def Rings.position (s : Rings) (va : ℕ) : ℕ := reach (s.consumed.map Consumed.segment) va

/-- `WriteIndex` of a ring. -/
def Rings.written (s : Rings) (va : ℕ) : ℕ :=
  ((s.memory va).word64 SensorRingControl.writeIndex).toNat

/-- How far the drain has come in the ring it is at. -/
def Drain.progress (d : Drain) : Option UInt64 :=
  match d.phase with
  | .slots _ drained _ => some drained
  | .payload _ drained .. => some drained
  | .writeBack drained => some drained
  | _ => none

/-- The rings a drain still has to write back, with the cursor it uses for each. -/
def Drain.pending (d : Drain) : List (ℕ × UInt64) :=
  match d.rings with
  | [] => []
  | ref :: rest => (ref.va, d.progress.getD ref.cursor) :: rest.map fun r => (r.va, r.cursor)

def heldRings (drains : List Drain) : List ℕ := drains.flatMap fun d => d.rings.map RingRef.va

/-- No ring is snapshotted that another drain has not written back. -/
def NoOverlap (s : Rings) : RingStep → Prop
  | .drain => ∀ ref ∈ Rings.ringRefs s.ledger, ref.va ∉ heldRings s.drains
  | _ => True

/-- `WriteIndex` is monotonic: a claim raises the LONG64 it is. -/
def Monotonic (s : Rings) : RingStep → Prop
  | .emit va _ => asI64 ((s.memory va).word64 SensorRingControl.writeIndex) <
      asI64 ((s.memory va).word64 SensorRingControl.writeIndex + 1)
  | _ => True

/-! ## The invariant -/

/-- The locals of a drain against the ring it is at. -/
def Drain.PhaseOk (s : Rings) (d : Drain) : Prop :=
  match d.phase with
  | .ring => True
  | .slots writeIndex drained _ => ∀ ref ∈ d.rings.head?,
      drained.toNat ≤ writeIndex.toNat ∧ writeIndex.toNat ≤ s.written ref.va
  | .payload writeIndex drained _ _ _ p => ∀ ref ∈ d.rings.head?,
      drained.toNat < writeIndex.toNat ∧ writeIndex.toNat ≤ s.written ref.va ∧ p.index = drained ∧
        (ref.va, drained) ∈ s.committed
  | .writeBack _ => True
  | .readDrained | .exchangeDrained _ | .readDropped | .exchangeDropped _ => d.rings = []
  | .faulted => False

/-- The invariant, for these drains in flight. -/
structure Aligned (s : Rings) (drains : List Drain) : Prop where
  honest : ∀ va, HonestRing (s.memory va) fun c => (va, c) ∈ s.committed
  producers : ∀ p ∈ s.producers, p.slot = slotAt (p.claimed.toNat % 4096)
  distinct : (s.ledger.filterMap RingEntry.ringKernelVa).Nodup
  consecutive : Consecutive (s.consumed.map Consumed.segment)
  ahead : ∀ va, s.position va ≤ s.written va
  promoted : ∀ ref p, .promoted ref p ∈ s.consumed → (ref.va, p.index) ∈ s.committed
  behind : ∀ entry ∈ s.ledger, ∀ va ∈ entry.ringKernelVa, entry.ringDrainIndex.toNat ≤ s.position va
  idle : ∀ entry ∈ s.ledger, ∀ va ∈ entry.ringKernelVa, va ∉ heldRings drains →
    entry.ringDrainIndex.toNat = s.position va
  held : (heldRings drains).Nodup
  cursors : ∀ d ∈ drains, ∀ pending ∈ d.pending, pending.2.toNat = s.position pending.1
  phases : ∀ d ∈ drains, d.PhaseOk s

section
variable {s : Rings} {drains rest : List Drain} {d : Drain}

theorem Drain.pending_vas (d : Drain) : d.pending.map Prod.fst = d.rings.map RingRef.va := by
  unfold Drain.pending
  split
  · rename_i h
    rw [h]
    rfl
  · rename_i ref more h
    rw [h]
    simp [Function.comp_def]

theorem heldRings_cons (d : Drain) (rest : List Drain) :
    heldRings (d :: rest) = d.rings.map RingRef.va ++ heldRings rest := rfl

theorem mem_heldRings_of_pending {va : ℕ} {c : UInt64} (hd : d ∈ drains) (h : (va, c) ∈ d.pending) :
    va ∈ heldRings drains := by
  apply List.mem_flatMap.mpr
  refine ⟨d, hd, ?_⟩
  rw [← d.pending_vas]
  exact List.mem_map_of_mem h

theorem Aligned.perm {drains' : List Drain} (h : Aligned s drains) (hperm : drains.Perm drains') :
    Aligned s drains' := by
  have hheld : (heldRings drains).Perm (heldRings drains') := hperm.flatMap_right _
  refine ⟨h.honest, h.producers, h.distinct, h.consecutive, h.ahead, h.promoted, h.behind, ?_,
    hheld.nodup_iff.mp h.held, fun d hd => h.cursors d (hperm.mem_iff.mpr hd),
    fun d hd => h.phases d (hperm.mem_iff.mpr hd)⟩
  intro entry hentry va hva hfree
  exact h.idle entry hentry va hva fun hmem => hfree (hheld.mem_iff.mp hmem)

/-- The invariant reads neither the drains of the state nor its counters. -/
theorem Aligned.congr {t : Rings} (h : Aligned s drains) (hmemory : t.memory = s.memory)
    (hledger : t.ledger = s.ledger) (hproducers : t.producers = s.producers)
    (hconsumed : t.consumed = s.consumed) (hcommitted : t.committed = s.committed) :
    Aligned t drains := by
  cases s
  cases t
  simp only at hmemory hledger hproducers hconsumed hcommitted
  subst hmemory hledger hproducers hconsumed hcommitted
  exact ⟨h.honest, h.producers, h.distinct, h.consecutive, h.ahead, h.promoted, h.behind, h.idle, h.held,
    h.cursors, h.phases⟩

/-- A drain that goes on with the same rings and cursors. -/
theorem Aligned.rephase (h : Aligned s (d :: rest)) (d' : Drain) (hrings : d'.rings = d.rings)
    (hpending : d'.pending = d.pending) (hphase : d'.PhaseOk s) : Aligned s (d' :: rest) := by
  have hheld : heldRings (d' :: rest) = heldRings (d :: rest) := by
    rw [heldRings_cons, heldRings_cons, hrings]
  refine ⟨h.honest, h.producers, h.distinct, h.consecutive, h.ahead, h.promoted, h.behind,
    hheld ▸ h.idle, hheld ▸ h.held, ?_, ?_⟩
  · intro x hx
    rcases List.mem_cons.mp hx with rfl | hrest
    · rw [hpending]
      exact h.cursors d List.mem_cons_self
    · exact h.cursors x (List.mem_cons_of_mem d hrest)
  · intro x hx
    rcases List.mem_cons.mp hx with rfl | hrest
    · exact hphase
    · exact h.phases x (List.mem_cons_of_mem d hrest)

/-- A drain with nothing left to write back may return. -/
theorem Aligned.leave (h : Aligned s (d :: rest)) (hrings : d.rings = []) : Aligned s rest := by
  have hheld : heldRings (d :: rest) = heldRings rest := by
    rw [heldRings_cons, hrings]
    rfl
  exact ⟨h.honest, h.producers, h.distinct, h.consecutive, h.ahead, h.promoted, h.behind,
    hheld ▸ h.idle, hheld ▸ h.held, fun x hx => h.cursors x (List.mem_cons_of_mem d hx),
    fun x hx => h.phases x (List.mem_cons_of_mem d hx)⟩

theorem position_consume (s : Rings) (ev : Consumed) (va : ℕ) :
    Rings.position { s with consumed := s.consumed ++ [ev] } va =
      if ev.segment.key = va then ev.segment.stop else s.position va := by
  rw [Rings.position, List.map_append, List.map_singleton, reach_snoc]
  rfl

/-- No other ring that is held is the one at the front. -/
theorem Aligned.others (h : Aligned s (d :: rest)) {ref : RingRef} {more : List RingRef}
    (hrings : d.rings = ref :: more) :
    (∀ r ∈ more, r.va ≠ ref.va) ∧ ∀ x ∈ rest, ∀ pending ∈ x.pending, pending.1 ≠ ref.va := by
  have hnodup := h.held
  rw [heldRings_cons, hrings, List.map_cons, List.cons_append, List.nodup_cons, List.mem_append,
    not_or] at hnodup
  constructor
  · intro r hr heq
    exact hnodup.1.1 (heq ▸ List.mem_map_of_mem hr)
  · intro x hx pending hpending heq
    exact hnodup.1.2 (heq ▸ mem_heldRings_of_pending hx hpending)

/-- The drain at the head consumes indices of the ring it is at. -/
theorem Aligned.consume (h : Aligned s (d :: rest)) (ev : Consumed) (d' : Drain) {ref : RingRef}
    {more : List RingRef} (hrings : d.rings = ref :: more) (hkey : ev.segment.key = ref.va)
    (hstart : ev.segment.start = s.position ref.va) (hle : ev.segment.start ≤ ev.segment.stop)
    (hstop : ev.segment.stop ≤ s.written ref.va)
    (hpromoted : ∀ r p, ev = .promoted r p → (r.va, p.index) ∈ s.committed)
    (hrings' : d'.rings = d.rings) {c : UInt64} (hprogress : d'.progress = some c)
    (hc : c.toNat = ev.segment.stop) (hphase : d'.PhaseOk s) :
    Aligned { s with consumed := s.consumed ++ [ev] } (d' :: rest) := by
  have hheld : heldRings (d' :: rest) = heldRings (d :: rest) := by
    rw [heldRings_cons, heldRings_cons, hrings']
  obtain ⟨hmoreNe, hrestNe⟩ := h.others hrings
  have hgrows : ∀ va, s.position va ≤
      Rings.position { s with consumed := s.consumed ++ [ev] } va := by
    intro va
    rw [position_consume, hkey]
    split
    · rename_i heq
      rw [← heq, ← hstart]
      exact hle
    · exact le_rfl
  have hsame : ∀ va, va ≠ ref.va → Rings.position { s with consumed := s.consumed ++ [ev] } va =
      s.position va := by
    intro va hne
    rw [position_consume, hkey, if_neg (Ne.symm hne)]
  refine ⟨h.honest, h.producers, h.distinct, ?_, ?_, ?_, ?_, ?_, hheld ▸ h.held, ?_, ?_⟩
  · rw [List.map_append, List.map_singleton]
    apply h.consecutive.snoc _ hle
    rw [hstart, hkey]
    rfl
  · intro va
    by_cases heq : va = ref.va
    · rw [position_consume, hkey, if_pos heq.symm, heq]
      exact hstop
    · rw [hsame va heq]
      exact h.ahead va
  · intro r p hmem
    rcases List.mem_append.mp hmem with hold | hnew
    · exact h.promoted r p hold
    · exact hpromoted r p (List.mem_singleton.mp hnew).symm
  · intro entry hentry va hva
    exact le_trans (h.behind entry hentry va hva) (hgrows va)
  · intro entry hentry va hva hfree
    rw [hheld] at hfree
    have hne : va ≠ ref.va := by
      rintro rfl
      exact hfree (by simp [heldRings_cons, hrings])
    rw [hsame va hne]
    exact h.idle entry hentry va hva hfree
  · intro x hx pending hpending
    rcases List.mem_cons.mp hx with rfl | hrest
    · rw [Drain.pending, hrings', hrings, hprogress] at hpending
      rcases List.mem_cons.mp hpending with rfl | hmore
      · simp only [Option.getD_some]
        rw [position_consume, hkey, if_pos rfl, hc]
      · obtain ⟨r, hr, rfl⟩ := List.mem_map.mp hmore
        simp only
        rw [hsame r.va (hmoreNe r hr)]
        apply h.cursors d List.mem_cons_self (r.va, r.cursor)
        rw [Drain.pending, hrings]
        exact List.mem_cons_of_mem _ (List.mem_map_of_mem hr)
    · rw [hsame pending.1 (hrestNe x hrest pending hpending)]
      exact h.cursors x (List.mem_cons_of_mem d hrest) pending hpending
  · intro x hx
    rcases List.mem_cons.mp hx with rfl | hrest
    · exact hphase
    · exact h.phases x (List.mem_cons_of_mem d hrest)

/-! ## Write-back and snapshot -/

theorem writeCursor_vas (va : ℕ) (drained : UInt64) (ledger : List RingEntry) :
    (Rings.writeCursor va drained ledger).filterMap RingEntry.ringKernelVa =
      ledger.filterMap RingEntry.ringKernelVa := by
  induction ledger with
  | nil => rfl
  | cons entry rest ih =>
    unfold Rings.writeCursor
    split
    · rfl
    · simp only [List.filterMap_cons, ih]

theorem mem_writeCursor {va : ℕ} {drained : UInt64} {ledger : List RingEntry} {entry : RingEntry}
    (hdistinct : (ledger.filterMap RingEntry.ringKernelVa).Nodup)
    (h : entry ∈ Rings.writeCursor va drained ledger) :
    entry ∈ ledger ∧ entry.ringKernelVa ≠ some va ∨
      entry.ringKernelVa = some va ∧ entry.ringDrainIndex = drained := by
  induction ledger with
  | nil => exact absurd h List.not_mem_nil
  | cons head rest ih =>
    unfold Rings.writeCursor at h
    by_cases hva : head.ringKernelVa == some va
    · rw [if_pos hva] at h
      rw [beq_iff_eq] at hva
      simp only [List.filterMap_cons, hva, List.nodup_cons, List.mem_filterMap, not_exists,
        not_and] at hdistinct
      rcases List.mem_cons.mp h with rfl | hrest
      · exact .inr ⟨hva, rfl⟩
      · exact .inl ⟨List.mem_cons_of_mem head hrest, hdistinct.1 entry hrest⟩
    · rw [if_neg hva] at h
      rcases List.mem_cons.mp h with rfl | hrest
      · exact .inl ⟨List.mem_cons_self, by simpa using hva⟩
      · have hrest' : (rest.filterMap RingEntry.ringKernelVa).Nodup := by
          rw [List.filterMap_cons] at hdistinct
          split at hdistinct
          · exact hdistinct
          · exact (List.nodup_cons.mp hdistinct).2
        rcases ih hrest' hrest with ⟨hold, hne⟩ | hset
        · exact .inl ⟨List.mem_cons_of_mem head hold, hne⟩
        · exact .inr hset

theorem Aligned.writeBack (h : Aligned s (d :: rest)) {ref : RingRef} {more : List RingRef}
    (hrings : d.rings = ref :: more) {drained : UInt64} (hprogress : d.progress = some drained)
    {d' : Drain} (hrings' : d'.rings = more) (hphase' : d'.phase = .ring) :
    Aligned { s with ledger := Rings.writeCursor ref.va drained s.ledger } (d' :: rest) := by
  have hcursor : drained.toNat = s.position ref.va := by
    apply h.cursors d List.mem_cons_self (ref.va, drained)
    rw [Drain.pending, hrings, hprogress]
    exact List.mem_cons_self
  have hpending : ∀ pending ∈ d'.pending, pending ∈ d.pending := by
    intro pending hmem
    rw [Drain.pending, hrings]
    rw [Drain.pending, hrings', Drain.progress, hphase'] at hmem
    cases more with
    | nil => exact absurd hmem List.not_mem_nil
    | cons r more => exact List.mem_cons_of_mem _ hmem
  have hsub : ∀ va, va ∈ heldRings (d :: rest) → va ≠ ref.va → va ∈ heldRings (d' :: rest) := by
    intro va hmem hne
    rw [heldRings_cons, hrings, List.map_cons, List.cons_append] at hmem
    rw [heldRings_cons, hrings']
    exact (List.mem_cons.mp hmem).resolve_left hne
  refine ⟨h.honest, h.producers, ?_, h.consecutive, h.ahead, h.promoted, ?_, ?_, ?_, ?_, ?_⟩
  · rw [writeCursor_vas]
    exact h.distinct
  · intro entry hentry va hva
    rcases mem_writeCursor h.distinct hentry with ⟨hold, -⟩ | ⟨hring, hindex⟩
    · exact h.behind entry hold va hva
    · obtain rfl : ref.va = va := Option.some.inj (hring.symm.trans hva)
      rw [hindex, hcursor]
      exact le_rfl
  · intro entry hentry va hva hfree
    rcases mem_writeCursor h.distinct hentry with ⟨hold, hother⟩ | ⟨hring, hindex⟩
    · apply h.idle entry hold va hva
      intro hmem
      apply hfree (hsub va hmem _)
      rintro rfl
      exact hother hva
    · obtain rfl : ref.va = va := Option.some.inj (hring.symm.trans hva)
      rw [hindex, hcursor]
      rfl
  · have hnodup := h.held
    rw [heldRings_cons, hrings, List.map_cons, List.cons_append, List.nodup_cons] at hnodup
    rw [heldRings_cons, hrings']
    exact hnodup.2
  · intro x hx pending hmem
    rcases List.mem_cons.mp hx with rfl | hrest
    · exact h.cursors d List.mem_cons_self pending (hpending pending hmem)
    · exact h.cursors x (List.mem_cons_of_mem d hrest) pending hmem
  · intro x hx
    rcases List.mem_cons.mp hx with rfl | hrest
    · rw [Drain.PhaseOk, hphase']
      trivial
    · exact h.phases x (List.mem_cons_of_mem d hrest)

theorem ringRefs_vas (ledger : List RingEntry) :
    ((Rings.ringRefs ledger).map RingRef.va).Sublist (ledger.filterMap RingEntry.ringKernelVa) := by
  have heq : (Rings.ringRefs ledger).map RingRef.va =
      (snapshot ledger).filterMap RingEntry.ringKernelVa := by
    rw [Rings.ringRefs, List.map_filterMap]
    congr 1
    funext entry
    simp [Function.comp_def]
  rw [heq]
  exact ((List.take_sublist 64 _).trans List.filter_sublist).filterMap _

theorem mem_ringRefs {ledger : List RingEntry} {ref : RingRef} (h : ref ∈ Rings.ringRefs ledger) :
    ∃ entry ∈ ledger, entry.ringKernelVa = some ref.va ∧ ref.cursor = entry.ringDrainIndex := by
  obtain ⟨entry, hentry, href⟩ := List.mem_filterMap.mp h
  obtain ⟨va, hva, rfl⟩ := Option.map_eq_some_iff.mp href
  exact ⟨entry, (List.mem_filter.mp (List.mem_of_mem_take hentry)).1, hva, rfl⟩

theorem Aligned.snapshot (h : Aligned s drains) (hfree : ∀ ref ∈ Rings.ringRefs s.ledger,
    ref.va ∉ heldRings drains) : Aligned s (⟨Rings.ringRefs s.ledger, .ring, 0, 0⟩ :: drains) := by
  have hcursors : ∀ pending ∈ Drain.pending ⟨Rings.ringRefs s.ledger, .ring, 0, 0⟩,
      ∃ ref ∈ Rings.ringRefs s.ledger, pending = (ref.va, ref.cursor) := by
    intro pending hpending
    unfold Drain.pending at hpending
    split at hpending
    · exact absurd hpending List.not_mem_nil
    · rename_i ref more heq
      simp only at heq
      rw [heq]
      rcases List.mem_cons.mp hpending with rfl | hmore
      · exact ⟨ref, List.mem_cons_self, rfl⟩
      · obtain ⟨r, hr, rfl⟩ := List.mem_map.mp hmore
        exact ⟨r, List.mem_cons_of_mem ref hr, rfl⟩
  refine ⟨h.honest, h.producers, h.distinct, h.consecutive, h.ahead, h.promoted, h.behind, ?_, ?_, ?_, ?_⟩
  · intro entry hentry va hva hnot
    apply h.idle entry hentry va hva
    intro hmem
    exact hnot (List.mem_append_right _ hmem)
  · rw [heldRings_cons]
    apply List.Nodup.append (h.distinct.sublist (ringRefs_vas s.ledger)) h.held
    intro va hnew hold
    obtain ⟨ref, href, rfl⟩ := List.mem_map.mp hnew
    exact hfree ref href hold
  · intro x hx pending hpending
    rcases List.mem_cons.mp hx with rfl | hrest
    · obtain ⟨ref, href, rfl⟩ := hcursors pending hpending
      obtain ⟨entry, hentry, hva, hcursor⟩ := mem_ringRefs href
      simp only
      rw [hcursor]
      exact h.idle entry hentry ref.va hva (hfree ref href)
    · exact h.cursors x hrest pending hpending
  · intro x hx
    rcases List.mem_cons.mp hx with rfl | hrest
    · trivial
    · exact h.phases x hrest

/-! ## Steps of a drain -/

/-- Behind the resync the cursor is at most one ring behind, and what it jumped over was counted. -/
theorem resync_spec {mem : Memory} {committed : UInt64 → Prop} (h : HonestRing mem committed)
    {cursor : UInt64} (hcursor : cursor.toNat ≤ (mem.word64 SensorRingControl.writeIndex).toNat) :
    (resync mem cursor).1.toNat = cursor.toNat + (resync mem cursor).2.toNat ∧
      (resync mem cursor).1.toNat ≤ (mem.word64 SensorRingControl.writeIndex).toNat := by
  have hindex := h.monotonic
  set writeIndex := mem.word64 SensorRingControl.writeIndex with hw
  have hcount : (4096 : UInt32).toUInt64 = 4096 := by decide
  have hnat : (4096 : UInt64).toNat = 4096 := by decide
  have hdiff : (writeIndex - cursor).toNat = writeIndex.toNat - cursor.toNat :=
    UInt64.toNat_sub_of_le _ _ (UInt64.le_iff_toNat_le.mpr hcursor)
  have hsigned : asI64 (writeIndex - cursor) = (writeIndex.toNat - cursor.toNat : ℕ) := by
    rw [asI64_of_lt (by omega), hdiff]
  simp only [resync, ← hw, h.slotCount, hcount, hnat, hsigned]
  split
  · rename_i hfull
    have hlap : 4096 + cursor.toNat < writeIndex.toNat := by
      simp only [gt_iff_lt] at hfull
      omega
    have hfirst : (writeIndex - 4096).toNat = writeIndex.toNat - 4096 := by
      rw [UInt64.toNat_sub_of_le _ _ (UInt64.le_iff_toNat_le.mpr (by rw [hnat]; omega)), hnat]
    have hsecond : (writeIndex - 4096 - cursor).toNat = writeIndex.toNat - 4096 - cursor.toNat := by
      rw [UInt64.toNat_sub_of_le _ _ (UInt64.le_iff_toNat_le.mpr (by rw [hfirst]; omega)), hfirst]
    rw [hfirst, hsecond]
    omega
  · simp only [UInt64.toNat_zero, Nat.add_zero]
    exact ⟨trivial, hcursor⟩

section
variable {ref : RingRef} {more : List RingRef}

theorem Aligned.cursor_eq (h : Aligned s (d :: rest)) (hrings : d.rings = ref :: more) :
    (d.progress.getD ref.cursor).toNat = s.position ref.va := by
  apply h.cursors d List.mem_cons_self (ref.va, d.progress.getD ref.cursor)
  rw [Drain.pending, hrings]
  exact List.mem_cons_self

theorem Aligned.beginRing (h : Aligned s (d :: rest)) (hrings : d.rings = ref :: more)
    (hphase : d.phase = .ring) {drained dropped : UInt64}
    (hresync : resync (s.memory ref.va) ref.cursor = (drained, dropped)) {d' : Drain}
    (hrings' : d'.rings = d.rings) (hphase' : d'.phase =
      .slots ((s.memory ref.va).word64 SensorRingControl.writeIndex) drained 0) :
    Aligned { s with consumed := s.consumed ++
        (if dropped = 0 then [] else [.dropped ref.va ref.cursor drained]) } (d' :: rest) := by
  have hnone : d.progress = none := by rw [Drain.progress, hphase]
  have hsome : d'.progress = some drained := by rw [Drain.progress, hphase']
  have hcursor : ref.cursor.toNat = s.position ref.va := by
    have heq := h.cursor_eq hrings
    rwa [hnone] at heq
  have hbehind : ref.cursor.toNat ≤ ((s.memory ref.va).word64 SensorRingControl.writeIndex).toNat := by
    rw [hcursor]
    exact h.ahead ref.va
  obtain ⟨hjump, hle⟩ := resync_spec (h.honest ref.va) hbehind
  rw [hresync] at hjump hle
  simp only at hjump hle
  have hok : d'.PhaseOk s := by
    rw [Drain.PhaseOk, hphase']
    intro r hr
    rw [hrings', hrings] at hr
    obtain rfl : ref = r := Option.some.inj hr
    exact ⟨hle, le_rfl⟩
  by_cases hzero : dropped = 0
  · rw [if_pos hzero, List.append_nil]
    have hsame : drained = ref.cursor := by
      apply UInt64.toNat_inj.mp
      rw [hjump, hzero, UInt64.toNat_zero, Nat.add_zero]
    apply h.rephase d' hrings' _ hok
    rw [Drain.pending, Drain.pending, hrings', hrings, hnone, hsome, hsame]
    rfl
  · rw [if_neg hzero]
    apply h.consume (.dropped ref.va ref.cursor drained) d' hrings rfl hcursor _ hle _ hrings' hsome rfl hok
    · simp only [Consumed.segment]
      omega
    · intro r p heq
      cases heq

/-- The commit check that succeeds. -/
theorem Aligned.committed_of_check (h : Aligned s (d :: rest)) (hrings : d.rings = ref :: more)
    {drained : UInt64} (hprogress : d.progress = some drained)
    (hseq : (s.memory ref.va).word64 (drainSlot (s.memory ref.va) drained) = drained + 1) :
    (ref.va, drained) ∈ s.committed := by
  have hcursor := h.cursor_eq hrings
  rw [hprogress, Option.getD_some] at hcursor
  have hahead := h.ahead ref.va
  have hindex := (h.honest ref.va).monotonic
  apply (h.honest ref.va).committed_of_seq _ hseq
  simp only [Rings.written] at hahead
  omega

theorem Aligned.proceed (h : Aligned s (d :: rest)) {d' : Drain} (hrings' : d'.rings = d.rings)
    (hprogress : d'.progress = d.progress) (hok : d'.PhaseOk s) : Aligned s (d' :: rest) := by
  apply h.rephase d' hrings' _ hok
  rw [Drain.pending, Drain.pending, hrings', hprogress]

/-- The slot passed its check: its index is committed and lies below the write index. -/
theorem Aligned.checked (h : Aligned s (d :: rest)) (hrings : d.rings = ref :: more)
    {writeIndex drained : UInt64} {drainedNow : ℕ}
    (hphase : d.phase = .slots writeIndex drained drainedNow)
    (hloop : asI64 drained < asI64 writeIndex)
    (hseq : (s.memory ref.va).word64 (drainSlot (s.memory ref.va) drained) = drained + 1) {d' : Drain}
    (hrings' : d'.rings = d.rings) {slot : ℕ} {p : Promotion} (hindex : p.index = drained)
    (hphase' : d'.phase = .payload writeIndex drained drainedNow slot 0 p) : Aligned s (d' :: rest) := by
  have hprogress : d.progress = some drained := by rw [Drain.progress, hphase]
  have hok := h.phases d List.mem_cons_self
  rw [Drain.PhaseOk, hphase] at hok
  obtain ⟨hle, hwritten⟩ := hok ref (by rw [hrings]; rfl)
  have hlt : drained.toNat < writeIndex.toNat := by
    have hmono := (h.honest ref.va).monotonic
    simp only [Rings.written] at hwritten
    rw [asI64_of_lt (by omega), asI64_of_lt (by omega)] at hloop
    omega
  apply h.proceed hrings'
  · rw [Drain.progress, hphase', hprogress]
  · rw [Drain.PhaseOk, hphase']
    intro r hr
    rw [hrings', hrings] at hr
    obtain rfl : ref = r := Option.some.inj hr
    exact ⟨hlt, hwritten, hindex, h.committed_of_check hrings hprogress hseq⟩

theorem readWord_index (mem : Memory) (slot : ℕ) (p : Promotion) (word : ℕ) :
    (Rings.readWord mem slot p word).index = p.index := by
  unfold Rings.readWord
  split <;> rfl

/-- A payload read that is not the last. -/
theorem Aligned.readMore (h : Aligned s (d :: rest)) (hrings : d.rings = ref :: more)
    {writeIndex drained : UInt64} {drainedNow slot word : ℕ} {p : Promotion}
    (hphase : d.phase = .payload writeIndex drained drainedNow slot word p) {d' : Drain}
    (hrings' : d'.rings = d.rings) {q : Promotion} (hindex : q.index = p.index)
    (hphase' : d'.phase = .payload writeIndex drained drainedNow slot (word + 1) q) :
    Aligned s (d' :: rest) := by
  have hok := h.phases d List.mem_cons_self
  rw [Drain.PhaseOk, hphase] at hok
  obtain ⟨hlt, hwritten, hp, hcommitted⟩ := hok ref (by rw [hrings]; rfl)
  apply h.proceed hrings'
  · rw [Drain.progress, hphase', Drain.progress, hphase]
  · rw [Drain.PhaseOk, hphase']
    intro r hr
    rw [hrings', hrings] at hr
    obtain rfl : ref = r := Option.some.inj hr
    exact ⟨hlt, hwritten, hindex.trans hp, hcommitted⟩

/-- The last payload read promotes the call. -/
theorem Aligned.promote (h : Aligned s (d :: rest)) (hrings : d.rings = ref :: more)
    {writeIndex drained : UInt64} {drainedNow slot word : ℕ} {p : Promotion}
    (hphase : d.phase = .payload writeIndex drained drainedNow slot word p) (d' : Drain)
    (hrings' : d'.rings = d.rings) {q : Promotion} (hindex : q.index = p.index)
    (hphase' : d'.phase = .slots writeIndex (drained + 1) (drainedNow + 1)) :
    Aligned { s with consumed := s.consumed ++ [.promoted ref q] } (d' :: rest) := by
  have hok := h.phases d List.mem_cons_self
  rw [Drain.PhaseOk, hphase] at hok
  obtain ⟨hlt, hwritten, hp, hcommitted⟩ := hok ref (by rw [hrings]; rfl)
  have hq : q.index = drained := hindex.trans hp
  have hcursor := h.cursor_eq hrings
  rw [show d.progress = some drained by rw [Drain.progress, hphase], Option.getD_some] at hcursor
  have hsucc : (drained + 1).toNat = drained.toNat + 1 := by
    have hmono := (h.honest ref.va).monotonic
    simp only [Rings.written] at hwritten
    rw [UInt64.toNat_add, UInt64.toNat_one]
    omega
  have hsegment : Consumed.segment (.promoted ref q) = ⟨ref.va, drained.toNat, drained.toNat + 1⟩ := by
    rw [Consumed.segment, hq]
  apply h.consume (.promoted ref q) d' hrings (c := drained + 1)
  · rw [hsegment]
  · rw [hsegment]
    exact hcursor
  · rw [hsegment]
    exact Nat.le_succ _
  · rw [hsegment]
    exact le_trans (Nat.succ_le_of_lt hlt) hwritten
  · intro r p' heq
    obtain ⟨rfl, rfl⟩ := Consumed.promoted.inj heq
    rw [hq]
    exact hcommitted
  · exact hrings'
  · rw [Drain.progress, hphase']
  · rw [hsegment, hsucc]
  · rw [Drain.PhaseOk, hphase']
    intro r hr
    rw [hrings', hrings] at hr
    obtain rfl : ref = r := Option.some.inj hr
    exact ⟨by omega, hwritten⟩

end

/-- Put a drain that is aligned beside the others back into its place. -/
theorem Aligned.set {k : ℕ} {d' : Drain} (hk : k < s.drains.length) {t : Rings}
    (h : Aligned t (d' :: s.drains.eraseIdx k)) : Aligned t (s.drains.set k d') :=
  h.perm (List.set_perm_cons_eraseIdx hk d').symm

section
variable {k : ℕ} (hk : k < s.drains.length) (hat : Aligned s (d :: s.drains.eraseIdx k))
include hk hat

theorem Aligned.atBegin {ref : RingRef} {more : List RingRef} (hrings : d.rings = ref :: more)
    (hphase : d.phase = .ring) :
    Aligned (s.beginRing k d ref more) (s.beginRing k d ref more).drains := by
  unfold Rings.beginRing
  simp only
  split
  · rename_i hstate
    exact absurd (hat.honest ref.va).state hstate
  · have hbegun : Aligned _ ({ d with
        phase := .slots ((s.memory ref.va).word64 SensorRingControl.writeIndex)
          (resync (s.memory ref.va) ref.cursor).1 0
        droppedTotal := d.droppedTotal + (resync (s.memory ref.va) ref.cursor).2 } ::
          s.drains.eraseIdx k) := hat.beginRing hrings hphase Prod.mk.eta.symm rfl rfl
    exact (hbegun.set hk).congr rfl rfl rfl rfl rfl

theorem Aligned.atCheck {ref : RingRef} {more : List RingRef} {writeIndex drained : UInt64}
    {drainedNow : ℕ} (hrings : d.rings = ref :: more)
    (hphase : d.phase = .slots writeIndex drained drainedNow) :
    Aligned (s.checkSlot k d ref writeIndex drained drainedNow)
      (s.checkSlot k d ref writeIndex drained drainedNow).drains := by
  have hprogress : d.progress = some drained := by rw [Drain.progress, hphase]
  have hback : Aligned s ({ d with phase := .writeBack drained } :: s.drains.eraseIdx k) :=
    hat.proceed rfl hprogress.symm trivial
  unfold Rings.checkSlot
  simp only
  split
  · rename_i hloop
    split
    · rename_i hzero
      rw [(hat.honest ref.va).slotCount] at hzero
      exact absurd hzero (by decide)
    · split
      · exact (hback.set hk).congr rfl rfl rfl rfl rfl
      · rename_i hseq
        have hchecked : Aligned s ({ d with
            phase := .payload writeIndex drained drainedNow (drainSlot (s.memory ref.va) drained) 0
              ⟨drained, 0, 0, 0, 0, 0, 0⟩ } :: s.drains.eraseIdx k) :=
          hat.checked hrings hphase hloop.2 (not_not.mp hseq) rfl rfl rfl
        exact (hchecked.set hk).congr rfl rfl rfl rfl rfl
  · exact (hback.set hk).congr rfl rfl rfl rfl rfl

theorem Aligned.atPayload {ref : RingRef} {more : List RingRef} {writeIndex drained : UInt64}
    {drainedNow slot word : ℕ} {p : Promotion} (hrings : d.rings = ref :: more)
    (hphase : d.phase = .payload writeIndex drained drainedNow slot word p) :
    Aligned (s.readPayload k d ref writeIndex drained drainedNow slot word p)
      (s.readPayload k d ref writeIndex drained drainedNow slot word p).drains := by
  have hindex := readWord_index (s.memory ref.va) slot p word
  unfold Rings.readPayload
  simp only
  split
  · have hmore : Aligned s ({ d with
        phase := .payload writeIndex drained drainedNow slot (word + 1)
          (Rings.readWord (s.memory ref.va) slot p word) } :: s.drains.eraseIdx k) :=
      hat.readMore hrings hphase rfl hindex rfl
    exact (hmore.set hk).congr rfl rfl rfl rfl rfl
  · have hpromoted : Aligned { s with consumed := s.consumed ++
        [.promoted ref (Rings.readWord (s.memory ref.va) slot p word)] } ({ d with
        phase := .slots writeIndex (drained + 1) (drainedNow + 1)
        drainedTotal := d.drainedTotal + 1 } :: s.drains.eraseIdx k) := by
      apply hat.promote hrings hphase _ _ hindex <;> rfl
    exact (hpromoted.set hk).congr rfl rfl rfl rfl rfl

/-- Behind the last ring a drain only changes its phase, or returns. -/
theorem Aligned.enter (hrings : d.rings = []) (phase : DrainPhase)
    (hok : Drain.PhaseOk s { d with phase }) : Aligned s (s.drains.set k { d with phase }) := by
  have hready : Aligned s ({ d with phase } :: s.drains.eraseIdx k) := by
    apply hat.rephase { d with phase } rfl _ hok
    simp only [Drain.pending, hrings]
  exact hready.set hk

theorem Aligned.atEnd (h : Aligned s s.drains) (hrings : d.rings = []) :
    Aligned (s.atEnd k d) (s.atEnd k d).drains := by
  cases hphase : d.phase with
  | ring =>
    rw [Rings.atEnd, hphase]
    exact (hat.enter hk hrings .readDrained hrings).congr rfl rfl rfl rfl rfl
  | readDrained =>
    rw [Rings.atEnd, hphase]
    simp only
    split
    · exact (hat.enter hk hrings (.exchangeDrained _) hrings).congr rfl rfl rfl rfl rfl
    · exact (hat.enter hk hrings .readDropped hrings).congr rfl rfl rfl rfl rfl
  | exchangeDrained total =>
    rw [Rings.atEnd, hphase]
    exact (hat.enter hk hrings .readDropped hrings).congr rfl rfl rfl rfl rfl
  | readDropped =>
    rw [Rings.atEnd, hphase]
    simp only
    split
    · exact (hat.enter hk hrings (.exchangeDropped _) hrings).congr rfl rfl rfl rfl rfl
    · exact (hat.leave hrings).congr rfl rfl rfl rfl rfl
  | exchangeDropped total =>
    rw [Rings.atEnd, hphase]
    exact (hat.leave hrings).congr rfl rfl rfl rfl rfl
  | _ =>
    rw [Rings.atEnd, hphase]
    exact h

theorem Aligned.atRing (h : Aligned s s.drains) {ref : RingRef} {more : List RingRef}
    (hrings : d.rings = ref :: more) :
    Aligned (s.atRing k d ref more) (s.atRing k d ref more).drains := by
  cases hphase : d.phase with
  | ring =>
    rw [Rings.atRing, hphase]
    exact hat.atBegin hk hrings hphase
  | slots writeIndex drained drainedNow =>
    rw [Rings.atRing, hphase]
    exact hat.atCheck hk hrings hphase
  | payload writeIndex drained drainedNow slot word p =>
    rw [Rings.atRing, hphase]
    exact hat.atPayload hk hrings hphase
  | writeBack drained =>
    have hwritten : Aligned _ ({ d with rings := more, phase := .ring } :: s.drains.eraseIdx k) :=
      hat.writeBack hrings (by rw [Drain.progress, hphase]) rfl rfl
    rw [Rings.atRing, hphase]
    exact (hwritten.set hk).congr rfl rfl rfl rfl rfl
  | _ =>
    rw [Rings.atRing, hphase]
    exact h

end

theorem Aligned.advance (h : Aligned s s.drains) (k : ℕ) : Aligned (s.advance k) (s.advance k).drains := by
  cases hget : s.drains[k]? with
  | none =>
    rw [Rings.advance_of_none hget]
    exact h
  | some d =>
    obtain ⟨hk, hd⟩ := List.getElem?_eq_some_iff.mp hget
    have hat : Aligned s (d :: s.drains.eraseIdx k) := by
      apply h.perm
      rw [← hd]
      exact (List.getElem_cons_eraseIdx_perm hk).symm
    rw [Rings.advance_of_get hget]
    cases hrings : d.rings with
    | nil =>
      rw [Rings.advanceAt, hrings]
      exact hat.atEnd hk h hrings
    | cons ref more =>
      rw [Rings.advanceAt, hrings]
      exact hat.atRing hk h hrings

end

end SecOutfall.Sensor
