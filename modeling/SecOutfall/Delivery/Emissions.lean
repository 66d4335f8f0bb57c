import SecOutfall.Delivery.Accounting
import SecOutfall.Wire.RoundTrip

/-! The records of the emitting routines, from the routine through the queues to the decoder. -/
namespace SecOutfall.Delivery
open Wire
set_option autoImplicit false

/-- A head that fits an empty buffer is only ever delivered, never skipped. -/
theorem popped_eq_deliver {size : ℕ} {d d' : Drain} {c : QueueClass} {item : Item}
    {q : Queue (capacity c)} (hitems : (d.driver.queue c).items = item :: q.items)
    (hsize : item.size ≤ size) (h : popped size d c = some d') : d' = d.deliver c item q := by
  obtain ⟨item', q', hitems', ⟨-, hd⟩ | ⟨hover, -, -⟩⟩ := popped_cases h
  · rw [hitems] at hitems'
    obtain ⟨rfl, hq⟩ := List.cons.inj hitems'
    rw [hd, Queue.ext hq]
  · rw [hitems] at hitems'
    rw [← (List.cons.inj hitems').1] at hover
    omega

/-- Every record the driver emits is within the bound, so that a drain into an accepted buffer
delivers it whole, and decodes to what was emitted, whatever follows it in the batch. -/
theorem emission_round_trip (e : Emission) (stamp : Stamp) :
    (e.record stamp).length ≤ maxRecordBytes ∧
    (∀ request : GetData, request.accepted → ∀ (d d' : Drain) c item q,
      (d.driver.queue c).items = item :: q.items → item.bytes = e.record stamp →
      popped request.size d c = some d' → d' = d.deliver c item q) ∧
    ∀ tail, recordSize (e.record stamp ++ tail) = .ok (e.record stamp).length ∧
      decode (e.record stamp ++ tail) = .ok (e.expected stamp) := by
  have hconveys := e.conveys stamp
  refine ⟨hconveys.bounded, ?_, fun tail => ⟨hconveys.size tail, hconveys.decoded tail⟩⟩
  intro request haccepted d d' c item q hitems hbytes hpop
  refine popped_eq_deliver hitems ?_ hpop
  have hbound := hconveys.bounded
  simp only [GetData.accepted, Bool.not_or, Bool.and_eq_true, Bool.not_eq_true', decide_eq_false_iff_not,
    not_lt] at haccepted
  rw [Item.size, hbytes]
  exact le_trans hbound haccepted.2

end SecOutfall.Delivery
