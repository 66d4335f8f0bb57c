import Mathlib.Data.UInt
import SecOutfall.Sensor.DrainRuns

/-! `SensorEventsDrained` and `SensorEventsDropped`.

A drain adds its totals at its end, with a read and an exchange that are not one operation. What
a counter holds and what the drains in flight still owe it add up to what happened, unless an
exchange overwrites an update made since the read. -/
namespace SecOutfall.Sensor
open Segments Runs
set_option autoImplicit false

/-! ## Tallies -/

/-- A counter, what a drain still owes it and what it counts. -/
structure Tally where
  counter : Rings → UInt64
  owed : Drain → UInt64
  count : Consumed → ℕ

def Consumed.records : Consumed → ℕ
  | .promoted _ _ => 1
  | .dropped _ _ _ => 0

def Consumed.lost : Consumed → ℕ
  | .promoted _ _ => 0
  | .dropped _ start stop => stop.toNat - start.toNat

def Drain.owedDrained (d : Drain) : UInt64 :=
  match d.phase with
  | .readDropped | .exchangeDropped _ => 0
  | _ => d.drainedTotal

def drainedTally : Tally := ⟨Rings.sensorEventsDrained, Drain.owedDrained, Consumed.records⟩

def droppedTally : Tally := ⟨Rings.sensorEventsDropped, Drain.droppedTotal, Consumed.lost⟩

def Tally.total (tally : Tally) (evs : List Consumed) : ℕ := (evs.map tally.count).sum

def Tally.Balanced (tally : Tally) (s : Rings) (drains : List Drain) : Prop :=
  tally.counter s + (drains.map tally.owed).sum = .ofNat (tally.total s.consumed)

/-- A step of `d` that left these drains in its place and did this. -/
def Tally.Settled (tally : Tally) (s t : Rings) (d : Drain) (left : List Drain)
    (evs : List Consumed) : Prop :=
  tally.counter t + (left.map tally.owed).sum = tally.counter s + tally.owed d + .ofNat (tally.total evs)

section
variable {tally : Tally} {s t : Rings} {drains rest left : List Drain} {d : Drain}

theorem Tally.Balanced.perm {drains' : List Drain} (h : tally.Balanced s drains)
    (hperm : drains.Perm drains') : tally.Balanced s drains' := by
  rw [Tally.Balanced, ← (hperm.map tally.owed).sum_eq]
  exact h

theorem Tally.Balanced.settle {evs : List Consumed} (h : tally.Balanced s (d :: rest))
    (hconsumed : t.consumed = s.consumed ++ evs) (hsettled : tally.Settled s t d left evs) :
    tally.Balanced t (left ++ rest) := by
  have htotal : tally.total t.consumed = tally.total s.consumed + tally.total evs := by
    rw [hconsumed, Tally.total, List.map_append, List.sum_append]
    rfl
  rw [Tally.Balanced, List.map_cons, List.sum_cons] at h
  rw [Tally.Settled] at hsettled
  rw [Tally.Balanced, List.map_append, List.sum_append, htotal, UInt64.ofNat_add, ← h]
  calc
    tally.counter t + ((left.map tally.owed).sum + (rest.map tally.owed).sum)
        = tally.counter t + (left.map tally.owed).sum + (rest.map tally.owed).sum := by
          rw [UInt64.add_assoc]
    _ = tally.counter s + tally.owed d + .ofNat (tally.total evs) + (rest.map tally.owed).sum := by
          rw [hsettled]
    _ = tally.counter s + (tally.owed d + (rest.map tally.owed).sum) + .ofNat (tally.total evs) := by
          grind

end

/-! ## Lost updates -/

/-- The exchange puts the counter's present value plus the total. -/
def Drain.DrainedFresh (s : Rings) (d : Drain) : Prop :=
  match d.phase with
  | .exchangeDrained total => total = s.sensorEventsDrained + d.drainedTotal
  | _ => True

def Drain.DroppedFresh (s : Rings) (d : Drain) : Prop :=
  match d.phase with
  | .exchangeDropped total => total = s.sensorEventsDropped + d.droppedTotal
  | _ => True

/-- `SensorEventsDrained` did not change between a drain's read and its exchange. -/
def NoLostUpdate (s : Rings) : RingStep → Prop
  | .advance k => ∀ d ∈ s.drains[k]?, d.DrainedFresh s
  | _ => True

/-! ## Steps -/

/-- What a step of drain `d` does to both tallies. -/
structure Settles (s t : Rings) (d : Drain) (rest left : List Drain) (evs : List Consumed) : Prop where
  drains : t.drains.Perm (left ++ rest)
  single : left.length ≤ 1
  consumed : t.consumed = s.consumed ++ evs
  drained : d.DrainedFresh s → drainedTally.Settled s t d left evs
  dropped : d.DroppedFresh s → droppedTally.Settled s t d left evs
  drainedFresh : ∀ x ∈ left, x.DrainedFresh t
  droppedFresh : ∀ x ∈ left, x.DroppedFresh t

section
variable {s : Rings} {d : Drain} {k : ℕ}

theorem set_perm (hget : s.drains[k]? = some d) (d' : Drain) :
    (s.drains.set k d').Perm ([d'] ++ s.drains.eraseIdx k) := by
  obtain ⟨hk, -⟩ := List.getElem?_eq_some_iff.mp hget
  exact List.set_perm_cons_eraseIdx hk d'

theorem Settles.moved (hget : s.drains[k]? = some d) (d' : Drain) (t : Rings) (evs : List Consumed)
    (hdrains : t.drains = s.drains.set k d') (hconsumed : t.consumed = s.consumed ++ evs)
    (hdrained : d.DrainedFresh s → t.sensorEventsDrained + d'.owedDrained =
      s.sensorEventsDrained + d.owedDrained + .ofNat (drainedTally.total evs))
    (hdropped : d.DroppedFresh s → t.sensorEventsDropped + d'.droppedTotal =
      s.sensorEventsDropped + d.droppedTotal + .ofNat (droppedTally.total evs))
    (hfresh : d'.DrainedFresh t) (hfresh' : d'.DroppedFresh t) :
    Settles s t d (s.drains.eraseIdx k) [d'] evs where
  drains := hdrains ▸ set_perm hget d'
  single := le_rfl
  consumed := hconsumed
  drained h := by
    rw [Tally.Settled, List.map_singleton, List.sum_singleton]
    exact hdrained h
  dropped h := by
    rw [Tally.Settled, List.map_singleton, List.sum_singleton]
    exact hdropped h
  drainedFresh x hx := List.mem_singleton.mp hx ▸ hfresh
  droppedFresh x hx := List.mem_singleton.mp hx ▸ hfresh'

/-- A step that neither consumes nor settles. -/
theorem Settles.quiet (hget : s.drains[k]? = some d) (d' : Drain) (t : Rings)
    (hdrains : t.drains = s.drains.set k d') (hconsumed : t.consumed = s.consumed)
    (hdrained : t.sensorEventsDrained = s.sensorEventsDrained)
    (hdropped : t.sensorEventsDropped = s.sensorEventsDropped) (howed : d'.owedDrained = d.owedDrained)
    (htotal : d'.droppedTotal = d.droppedTotal) (hfresh : d'.DrainedFresh t)
    (hfresh' : d'.DroppedFresh t) : Settles s t d (s.drains.eraseIdx k) [d'] [] := by
  apply Settles.moved hget d' t [] hdrains (hconsumed.trans (List.append_nil _).symm) _ _ hfresh hfresh'
  · intro _
    rw [hdrained, howed]
    exact (UInt64.add_zero _).symm
  · intro _
    rw [hdropped, htotal]
    exact (UInt64.add_zero _).symm

/-- The return of a drain. -/
theorem Settles.left (t : Rings) (hdrains : t.drains = s.drains.eraseIdx k)
    (hconsumed : t.consumed = s.consumed) (hdrained : t.sensorEventsDrained = s.sensorEventsDrained)
    (howed : d.owedDrained = 0)
    (hdropped : d.DroppedFresh s → t.sensorEventsDropped = s.sensorEventsDropped + d.droppedTotal) :
    Settles s t d (s.drains.eraseIdx k) [] [] where
  drains := hdrains ▸ List.Perm.refl _
  single := Nat.zero_le _
  consumed := hconsumed.trans (List.append_nil _).symm
  drained _ := by simp [Tally.Settled, drainedTally, Tally.total, hdrained, howed]
  dropped h := by simp [Tally.Settled, droppedTally, Tally.total, hdropped h]
  drainedFresh x hx := absurd hx List.not_mem_nil
  droppedFresh x hx := absurd hx List.not_mem_nil

/-- The resync counts what it jumps over. -/
theorem beginRing_settles (h : Aligned s s.drains) (hget : s.drains[k]? = some d) {ref : RingRef}
    {more : List RingRef} (hrings : d.rings = ref :: more) (hphase : d.phase = .ring) :
    ∃ left evs, Settles s (s.beginRing k d ref more) d (s.drains.eraseIdx k) left evs := by
  have hmem : d ∈ s.drains := List.mem_of_getElem? hget
  have howed : d.owedDrained = d.drainedTotal := by rw [Drain.owedDrained, hphase]
  have hcursor : ref.cursor.toNat = s.position ref.va := by
    apply h.cursors d hmem (ref.va, ref.cursor)
    rw [Drain.pending, hrings, Drain.progress, hphase]
    exact List.mem_cons_self
  have hbehind : ref.cursor.toNat ≤ ((s.memory ref.va).word64 SensorRingControl.writeIndex).toNat := by
    rw [hcursor]
    exact h.ahead ref.va
  obtain ⟨hjump, -⟩ := resync_spec (h.honest ref.va) hbehind
  unfold Rings.beginRing
  simp only
  split
  · refine ⟨_, _, .quiet hget { d with rings := more } _ rfl rfl rfl rfl rfl rfl ?_ ?_⟩
    · simp only [Drain.DrainedFresh, hphase]
    · simp only [Drain.DroppedFresh, hphase]
  · refine ⟨_, _, .moved hget _ _ _ rfl rfl ?_ ?_ trivial trivial⟩
    · intro _
      rw [howed]
      split <;> simp [drainedTally, Tally.total, Drain.owedDrained, Consumed.records]
    · intro _
      split
      · rename_i hzero
        simp [droppedTally, Tally.total, hzero]
      · simp only [droppedTally, Tally.total, List.map_singleton, List.sum_singleton, Consumed.lost,
          hjump, Nat.add_sub_cancel_left, UInt64.ofNat_toNat]
        exact (UInt64.add_assoc _ _ _).symm

theorem checkSlot_settles (hget : s.drains[k]? = some d) (ref : RingRef) {writeIndex drained : UInt64}
    {drainedNow : ℕ} (hphase : d.phase = .slots writeIndex drained drainedNow) :
    ∃ left evs, Settles s (s.checkSlot k d ref writeIndex drained drainedNow) d (s.drains.eraseIdx k)
      left evs := by
  have howed : d.owedDrained = d.drainedTotal := by rw [Drain.owedDrained, hphase]
  unfold Rings.checkSlot
  simp only
  split
  · split
    · exact ⟨_, _, .quiet hget _ _ rfl rfl rfl rfl howed.symm rfl trivial trivial⟩
    · split
      · exact ⟨_, _, .quiet hget _ _ rfl rfl rfl rfl howed.symm rfl trivial trivial⟩
      · exact ⟨_, _, .quiet hget _ _ rfl rfl rfl rfl howed.symm rfl trivial trivial⟩
  · exact ⟨_, _, .quiet hget _ _ rfl rfl rfl rfl howed.symm rfl trivial trivial⟩

/-- A promotion adds one to the total. -/
theorem readPayload_settles (hget : s.drains[k]? = some d) (ref : RingRef)
    {writeIndex drained : UInt64} {drainedNow slot word : ℕ} {p : Promotion}
    (hphase : d.phase = .payload writeIndex drained drainedNow slot word p) :
    ∃ left evs, Settles s (s.readPayload k d ref writeIndex drained drainedNow slot word p) d
      (s.drains.eraseIdx k) left evs := by
  have howed : d.owedDrained = d.drainedTotal := by rw [Drain.owedDrained, hphase]
  unfold Rings.readPayload
  simp only
  split
  · exact ⟨_, _, .quiet hget _ _ rfl rfl rfl rfl howed.symm rfl trivial trivial⟩
  · refine ⟨_, _, .moved hget _ _ _ rfl rfl ?_ ?_ trivial trivial⟩
    · intro _
      rw [howed]
      exact (UInt64.add_assoc _ _ _).symm
    · intro _
      exact (UInt64.add_zero _).symm

theorem eq_zero_of_not_pos {v : UInt64} (h : ¬ v > 0) : v = 0 := by
  apply UInt64.toNat_inj.mp
  have hle := UInt64.le_iff_toNat_le.mp (UInt64.not_lt.mp h)
  exact Nat.le_zero.mp hle

/-- A drain that does not move has not read a counter. -/
theorem stay_settles (hget : s.drains[k]? = some d) (hfresh : d.DrainedFresh s)
    (hfresh' : d.DroppedFresh s) : ∃ left evs, Settles s s d (s.drains.eraseIdx k) left evs := by
  obtain ⟨hk, hd⟩ := List.getElem?_eq_some_iff.mp hget
  refine ⟨_, _, .quiet hget d s ?_ rfl rfl rfl rfl rfl hfresh hfresh'⟩
  rw [← hd, List.set_getElem_self]

theorem atRing_settles (h : Aligned s s.drains) (hget : s.drains[k]? = some d) {ref : RingRef}
    {more : List RingRef} (hrings : d.rings = ref :: more) :
    ∃ left evs, Settles s (s.atRing k d ref more) d (s.drains.eraseIdx k) left evs := by
  have hok := h.phases d (List.mem_of_getElem? hget)
  have hbusy : d.rings ≠ [] := by
    rw [hrings]
    exact List.cons_ne_nil _ _
  cases hphase : d.phase with
  | ring =>
    rw [Rings.atRing, hphase]
    exact beginRing_settles h hget hrings hphase
  | slots writeIndex drained drainedNow =>
    rw [Rings.atRing, hphase]
    exact checkSlot_settles hget ref hphase
  | payload writeIndex drained drainedNow slot word p =>
    rw [Rings.atRing, hphase]
    exact readPayload_settles hget ref hphase
  | writeBack drained =>
    have howed : d.owedDrained = d.drainedTotal := by rw [Drain.owedDrained, hphase]
    rw [Rings.atRing, hphase]
    exact ⟨_, _, .quiet hget _ _ rfl rfl rfl rfl howed.symm rfl trivial trivial⟩
  | faulted =>
    rw [Drain.PhaseOk, hphase] at hok
    exact hok.elim
  | _ =>
    rw [Drain.PhaseOk, hphase] at hok
    exact absurd hok hbusy

theorem atEnd_settles (hget : s.drains[k]? = some d) :
    ∃ left evs, Settles s (s.atEnd k d) d (s.drains.eraseIdx k) left evs := by
  cases hphase : d.phase with
  | ring =>
    have howed : d.owedDrained = d.drainedTotal := by rw [Drain.owedDrained, hphase]
    rw [Rings.atEnd, hphase]
    exact ⟨_, _, .quiet hget _ _ rfl rfl rfl rfl howed.symm rfl trivial trivial⟩
  | readDrained =>
    have howed : d.owedDrained = d.drainedTotal := by rw [Drain.owedDrained, hphase]
    rw [Rings.atEnd, hphase]
    simp only
    split
    · exact ⟨_, _, .quiet hget _ _ rfl rfl rfl rfl howed.symm rfl rfl trivial⟩
    · rename_i hzero
      have hnone : d.owedDrained = 0 := howed.trans (eq_zero_of_not_pos hzero)
      exact ⟨_, _, .quiet hget _ _ rfl rfl rfl rfl hnone.symm rfl trivial trivial⟩
  | exchangeDrained total =>
    have howed : d.owedDrained = d.drainedTotal := by rw [Drain.owedDrained, hphase]
    rw [Rings.atEnd, hphase]
    refine ⟨_, _, .moved hget _ _ [] rfl (List.append_nil _).symm ?_ ?_ trivial trivial⟩
    · intro hfresh
      rw [Drain.DrainedFresh, hphase] at hfresh
      rw [howed, ← hfresh]
      rfl
    · intro _
      exact (UInt64.add_zero _).symm
  | readDropped =>
    have howed : d.owedDrained = 0 := by rw [Drain.owedDrained, hphase]
    rw [Rings.atEnd, hphase]
    simp only
    split
    · exact ⟨_, _, .quiet hget _ _ rfl rfl rfl rfl howed.symm rfl trivial rfl⟩
    · rename_i hzero
      refine ⟨_, _, .left _ rfl rfl rfl howed ?_⟩
      intro _
      rw [eq_zero_of_not_pos hzero, UInt64.add_zero]
  | exchangeDropped total =>
    have howed : d.owedDrained = 0 := by rw [Drain.owedDrained, hphase]
    rw [Rings.atEnd, hphase]
    refine ⟨_, _, .left _ rfl rfl rfl howed ?_⟩
    intro hfresh
    rwa [Drain.DroppedFresh, hphase] at hfresh
  | _ =>
    rw [Rings.atEnd, hphase]
    apply stay_settles hget
    · rw [Drain.DrainedFresh, hphase]
      trivial
    · rw [Drain.DroppedFresh, hphase]
      trivial

theorem advance_settles (h : Aligned s s.drains) (hget : s.drains[k]? = some d) :
    ∃ left evs, Settles s (s.advance k) d (s.drains.eraseIdx k) left evs := by
  rw [Rings.advance_of_get hget]
  cases hrings : d.rings with
  | nil =>
    rw [Rings.advanceAt, hrings]
    exact atEnd_settles hget
  | cons ref more =>
    rw [Rings.advanceAt, hrings]
    exact atRing_settles h hget hrings

/-- Where the step finds its drain, the tallies move together with it. -/
theorem Tally.Balanced.advance {tally : Tally} (hbalanced : tally.Balanced s s.drains)
    (hget : s.drains[k]? = some d) {t : Rings} {left : List Drain} {evs : List Consumed}
    (h : Settles s t d (s.drains.eraseIdx k) left evs) (hsettled : tally.Settled s t d left evs) :
    tally.Balanced t t.drains := by
  obtain ⟨hk, hd⟩ := List.getElem?_eq_some_iff.mp hget
  have hperm : s.drains.Perm (d :: s.drains.eraseIdx k) := by
    rw [← hd]
    exact (List.getElem_cons_eraseIdx_perm hk).symm
  exact ((hbalanced.perm hperm).settle h.consumed hsettled).perm h.drains.symm

theorem Tally.Balanced.snapshot {tally : Tally} (h : tally.Balanced s s.drains)
    (hcounter : tally.counter s.drain = tally.counter s)
    (howed : ∀ rings, tally.owed ⟨rings, .ring, 0, 0⟩ = 0) : tally.Balanced s.drain s.drain.drains := by
  have hsum : (s.drain.drains.map tally.owed).sum = (s.drains.map tally.owed).sum := by
    simp only [Rings.drain, List.map_append, List.map_singleton, List.sum_append, List.sum_singleton, howed,
      UInt64.add_zero]
  rw [Tally.Balanced, hcounter, hsum]
  exact h

theorem Tally.Balanced.untouched {tally : Tally} {t : Rings} (h : tally.Balanced s s.drains)
    (hframe : Untouched s t) (hcounter : tally.counter t = tally.counter s) :
    tally.Balanced t t.drains := by
  rw [Tally.Balanced, hcounter, hframe.drains, hframe.consumed]
  exact h

theorem Tally.Balanced.step {tally : Tally} {op : RingStep} (h : tally.Balanced s s.drains)
    (haligned : Aligned s s.drains) (hframe : ∀ t, Untouched s t → tally.counter t = tally.counter s)
    (hsnapshot : tally.counter s.drain = tally.counter s)
    (howed : ∀ rings, tally.owed ⟨rings, .ring, 0, 0⟩ = 0)
    (hsettled : ∀ k, op = .advance k → ∀ d ∈ s.drains[k]?, ∀ left evs,
      Settles s (s.advance k) d (s.drains.eraseIdx k) left evs → tally.Settled s (s.advance k) d left evs) :
    tally.Balanced (s.step op) (s.step op).drains := by
  cases op with
  | emit va call =>
    have huntouched := claim_untouched s va call
    exact h.untouched huntouched (hframe _ huntouched)
  | produce j =>
    have huntouched := produce_untouched s j
    exact h.untouched huntouched (hframe _ huntouched)
  | drain => exact h.snapshot hsnapshot howed
  | advance k =>
    cases hget : s.drains[k]? with
    | none =>
      have hsame : s.step (.advance k) = s := Rings.advance_of_none hget
      rwa [hsame]
    | some d =>
      obtain ⟨left, evs, hsettles⟩ := advance_settles haligned hget
      exact h.advance hget hsettles (hsettled k rfl d hget left evs hsettles)

theorem drained_balanced_step {op : RingStep} (haligned : Aligned s s.drains)
    (h : drainedTally.Balanced s s.drains) (hlost : NoLostUpdate s op) :
    drainedTally.Balanced (s.step op) (s.step op).drains := by
  apply h.step haligned (fun t ht => ht.drained) rfl (fun _ => rfl)
  rintro k rfl d hget left evs hsettles
  exact hsettles.drained (hlost d hget)

end

/-! ## Sequential drains -/

def Sequential (s : Rings) : RingStep → Prop
  | .drain => s.drains = []
  | _ => True

/-- At most one drain is in flight, and no counter it has read has changed. -/
structure Lone (s : Rings) : Prop where
  single : s.drains.length ≤ 1
  drained : ∀ d ∈ s.drains, d.DrainedFresh s
  dropped : ∀ d ∈ s.drains, d.DroppedFresh s

section
variable {s : Rings} {op : RingStep}

theorem Sequential.noOverlap (h : Sequential s op) : NoOverlap s op := by
  cases op with
  | drain =>
    have hnone : s.drains = [] := h
    intro ref _
    rw [hnone]
    exact List.not_mem_nil
  | _ => trivial

theorem Lone.untouched (h : Lone s) {t : Rings} (hframe : Untouched s t) : Lone t where
  single := hframe.drains ▸ h.single
  drained d hd := by
    have hfresh := h.drained d (hframe.drains ▸ hd)
    simp only [Drain.DrainedFresh, hframe.drained]
    exact hfresh
  dropped d hd := by
    have hfresh := h.dropped d (hframe.drains ▸ hd)
    simp only [Drain.DroppedFresh, hframe.dropped]
    exact hfresh

theorem Lone.step (h : Lone s) (haligned : Aligned s s.drains) (hseq : Sequential s op) :
    Lone (s.step op) := by
  cases op with
  | emit va call => exact h.untouched (claim_untouched s va call)
  | produce j => exact h.untouched (produce_untouched s j)
  | drain =>
    have hdrains : (s.step .drain).drains = [⟨Rings.ringRefs s.ledger, .ring, 0, 0⟩] := by
      simp only [Rings.step, Rings.drain]
      rw [show s.drains = [] from hseq, List.nil_append]
    refine ⟨?_, ?_, ?_⟩
    · rw [hdrains]
      exact le_rfl
    · intro d hd
      rw [hdrains] at hd
      rw [List.mem_singleton.mp hd]
      trivial
    · intro d hd
      rw [hdrains] at hd
      rw [List.mem_singleton.mp hd]
      trivial
  | advance k =>
    cases hget : s.drains[k]? with
    | none =>
      have hsame : s.step (.advance k) = s := Rings.advance_of_none hget
      rwa [hsame]
    | some d =>
      obtain ⟨left, evs, hsettles⟩ := advance_settles haligned hget
      obtain ⟨hk, -⟩ := List.getElem?_eq_some_iff.mp hget
      have hrest : s.drains.eraseIdx k = [] := by
        apply List.eq_nil_of_length_eq_zero
        have hsingle := h.single
        rw [List.length_eraseIdx_of_lt hk]
        omega
      have hperm := hsettles.drains
      rw [hrest, List.append_nil] at hperm
      refine ⟨?_, ?_, ?_⟩
      · exact hperm.length_eq.trans_le hsettles.single
      · intro x hx
        exact hsettles.drainedFresh x (hperm.mem_iff.mp hx)
      · intro x hx
        exact hsettles.droppedFresh x (hperm.mem_iff.mp hx)

theorem dropped_balanced_step (haligned : Aligned s s.drains) (hlone : Lone s)
    (h : droppedTally.Balanced s s.drains) : droppedTally.Balanced (s.step op) (s.step op).drains := by
  apply h.step haligned (fun t ht => ht.dropped) rfl (fun _ => rfl)
  rintro k rfl d hget left evs hsettles
  exact hsettles.dropped (hlone.dropped d (List.mem_of_getElem? hget))

end

end SecOutfall.Sensor
