import Mathlib.Data.List.Perm.Basic
import Mathlib.Data.List.Nodup
import SecOutfall.Delivery.Accounting

/-! No silent loss: the classes a record can end in, their counters and the batches. -/
namespace SecOutfall.Delivery
open Runs
set_option autoImplicit false

/-! ## Classes of records -/

namespace Driver

def offered (s : Driver) : List (QueueClass × Item) :=
  s.history.offers.map fun o => (o.cls, o.item)

def linked (s : Driver) : List (QueueClass × Item) :=
  queues.flatMap fun c => (s.queue c).items.map fun item => (c, item)

def refused (s : Driver) : List (QueueClass × Item) :=
  (s.history.offers.filter fun o => !o.linked).map fun o => (o.cls, o.item)

def departedBy (s : Driver) (fate : Fate) : List (QueueClass × Item) :=
  (s.history.departures.filter fun x => x.fate = fate).map fun x => (x.cls, x.item)

end Driver

/-! ## Counters -/

/-- Each counter is the size of its class, and only the drops queue refuses. -/
structure Counted (s : Driver) : Prop where
  queueOverwritten : s.counters.queueOverwritten =
    ((s.departedBy .evicted).filter fun x => x.1 = .items).length
  filesOverwritten : s.counters.filesOverwritten =
    ((s.departedBy .evicted).filter fun x => x.1 = .files).length
  dropsKept : ∀ x ∈ s.departedBy .evicted, x.1 ≠ .drops
  dropsStopped : s.counters.dropsStopped = s.refused.length
  refusedDrops : ∀ x ∈ s.refused, x.1 = .drops
  oversizedSkipped : s.counters.oversizedSkipped = (s.departedBy .skipped).length

theorem counted_init : Counted Driver.init where
  queueOverwritten := rfl
  filesOverwritten := rfl
  dropsKept _ hx := absurd hx List.not_mem_nil
  dropsStopped := rfl
  refusedDrops _ hx := absurd hx List.not_mem_nil
  oversizedSkipped := rfl

namespace Driver

theorem departedBy_leave (s : Driver) (c : QueueClass) (item : Item) (fate fate' : Fate)
    (q : Queue (capacity c)) :
    (s.leave c item fate q).departedBy fate' =
      s.departedBy fate' ++ if fate = fate' then [(c, item)] else [] := by
  by_cases h : fate = fate' <;>
    simp [departedBy, leave, exFreePool, noteDeparture, setQueue, List.filter_append, h]

theorem departedBy_linkOver (s : Driver) (c : QueueClass) (item old : Item) (fate : Fate)
    (q : Queue (capacity c)) :
    (s.linkOver c item old q).departedBy fate =
      s.departedBy fate ++ if .evicted = fate then [(c, old)] else [] := by
  by_cases h : .evicted = fate <;>
    simp [departedBy, linkOver, exFreePool, noteDeparture, link, noteOffer, noteAllocated, setQueue,
      List.filter_append, h]

theorem refused_linkOver (s : Driver) (c : QueueClass) (item old : Item) (q : Queue (capacity c)) :
    (s.linkOver c item old q).refused = s.refused := by
  simp [refused, linkOver, exFreePool, noteDeparture, link, noteOffer, noteAllocated, setQueue]

theorem refused_link (s : Driver) (c : QueueClass) (item : Item) (q : Queue (capacity c)) :
    (s.link c item q).refused = s.refused := by
  simp [refused, link, noteOffer, noteAllocated, setQueue]

theorem refused_refuse (s : Driver) (item : Item) :
    (s.refuse item).refused = s.refused ++ [(.drops, item)] := by
  simp [refused, refuse, noteOffer, noteAllocated]

end Driver

theorem counted_stepClosed : StepClosed Counted where
  allocFailed s h := ⟨h.1, h.2, h.3, h.4, h.5, h.6⟩
  refuse s r h hfull := by
    refine ⟨h.1, h.2, h.3, ?_, ?_, h.6⟩
    · rw [Driver.refused_refuse, List.length_append, ← h.dropsStopped]
      rfl
    · rw [Driver.refused_refuse, List.forall_mem_append]
      exact ⟨h.refusedDrops, by simp⟩
  link s c r q h hq := by
    refine ⟨h.1, h.2, h.3, ?_, ?_, h.6⟩
    · rw [Driver.refused_link]
      exact h.dropsStopped
    · rw [Driver.refused_link]
      exact h.refusedDrops
  linkOver s c r old q hdrops h hq := by
    have hover := s.departedBy_linkOver c (s.newItem r) old .evicted q
    have hskip := s.departedBy_linkOver c (s.newItem r) old .skipped q
    rw [if_pos rfl] at hover
    rw [if_neg (by decide), List.append_nil] at hskip
    refine ⟨?_, ?_, ?_, ?_, ?_, ?_⟩
    · rw [hover, List.filter_append, List.length_append, ← h.queueOverwritten]
      cases c <;> first | exact absurd rfl hdrops | rfl
    · rw [hover, List.filter_append, List.length_append, ← h.filesOverwritten]
      cases c <;> first | exact absurd rfl hdrops | rfl
    · rw [hover, List.forall_mem_append]
      exact ⟨h.dropsKept, by simpa using hdrops⟩
    · rw [Driver.refused_linkOver, ← h.dropsStopped]
      cases c <;> rfl
    · rw [Driver.refused_linkOver]
      exact h.refusedDrops
    · rw [hskip, ← h.oversizedSkipped]
      cases c <;> rfl
  deliver s c item q h hq := by
    have hover := s.departedBy_leave c item .delivered .evicted q
    have hskip := s.departedBy_leave c item .delivered .skipped q
    rw [if_neg (by decide), List.append_nil] at hover hskip
    exact ⟨by rw [hover]; exact h.1, by rw [hover]; exact h.2, by rw [hover]; exact h.3, h.4, h.5,
      by rw [hskip]; exact h.6⟩
  skip s c item q h hq := by
    have hover := s.departedBy_leave c item .skipped .evicted q
    have hskip := s.departedBy_leave c item .skipped .skipped q
    rw [if_neg (by decide), List.append_nil] at hover
    rw [if_pos rfl] at hskip
    refine ⟨?_, ?_, ?_, h.4, h.5, ?_⟩
    · exact h.queueOverwritten.trans (by rw [← hover]; rfl)
    · exact h.filesOverwritten.trans (by rw [← hover]; rfl)
    · exact fun x hx => h.dropsKept x (hover ▸ hx)
    · have hlen := congrArg List.length hskip
      rw [List.length_append, ← h.oversizedSkipped] at hlen
      exact hlen.symm
  batch s b h := ⟨h.1, h.2, h.3, h.4, h.5, h.6⟩

/-! ## Batches -/

/-- A batch is its whole records back to back, and fits the client's buffer. -/
def Batch.WellFormed (b : Batch) : Prop :=
  b.bytes = b.records.flatMap (fun x => x.2.bytes) ∧ b.bytes.length ≤ b.bufferSize

/-- The batches, in order, are the delivered records. -/
structure Batched (s : Driver) : Prop where
  delivered : s.history.batches.flatMap Batch.records = s.departedBy .delivered
  wellFormed : ∀ b ∈ s.history.batches, b.WellFormed

theorem batched_init : Batched Driver.init where
  delivered := rfl
  wellFormed _ hb := absurd hb List.not_mem_nil

structure Draining (size : ℕ) (d : Drain) : Prop where
  delivered : d.driver.history.batches.flatMap Batch.records ++ d.records =
    d.driver.departedBy .delivered
  wellFormed : ∀ b ∈ d.driver.history.batches, b.WellFormed
  out : d.out = d.records.flatMap fun x => x.2.bytes
  count : d.count = d.out.length
  fits : d.count ≤ size

theorem emit_departedBy_delivered (s : Driver) (c : QueueClass) (record : Option Driver.WireRecord) :
    (s.emit c record).departedBy .delivered = s.departedBy .delivered ∧
      (s.emit c record).history.batches = s.history.batches := by
  obtain ⟨-, he⟩ | ⟨r, -, ⟨-, -, he⟩ | ⟨q, -, he⟩ | ⟨-, old, q, -, he⟩⟩ := emit_cases s c record
  · rw [he]
    exact ⟨rfl, rfl⟩
  · rw [he]
    exact ⟨rfl, rfl⟩
  · rw [he]
    exact ⟨rfl, rfl⟩
  · rw [he, Driver.departedBy_linkOver, if_neg (by decide), List.append_nil]
    exact ⟨rfl, by rw [Driver.linkOver, Driver.countOverflow_history]; rfl⟩

theorem Batched.emit {s : Driver} (h : Batched s) (c : QueueClass)
    (record : Option Driver.WireRecord) : Batched (s.emit c record) := by
  obtain ⟨hd, hb⟩ := emit_departedBy_delivered s c record
  exact ⟨by rw [hb, hd]; exact h.delivered, by rw [hb]; exact h.wellFormed⟩

theorem Batched.promote {s : Driver} (h : Batched s) (records : List (Option Driver.WireRecord)) :
    Batched (s.promote records) := by
  induction records generalizing s with
  | nil => exact h
  | cons record records ih => exact ih (h.emit .files record)

theorem Draining.drainBody {size : ℕ} {d d' : Drain} (h : Draining size d)
    (hb : Delivery.drainBody size d = some d') : Draining size d' := by
  obtain ⟨c, hc⟩ := drainBody_popped hb
  obtain ⟨item, q, -, ⟨hle, rfl⟩ | ⟨-, -, rfl⟩⟩ := popped_cases hc
  · have hcount := h.count
    have hfits := h.fits
    refine ⟨?_, h.wellFormed, ?_, ?_, ?_⟩
    · have hd := d.driver.departedBy_leave c item .delivered .delivered q
      rw [if_pos rfl, ← h.delivered, List.append_assoc] at hd
      exact hd.symm
    · simp [Drain.deliver, h.out]
    · simp [Drain.deliver, hcount, Item.size]
    · simp only [Drain.deliver]
      omega
  · refine ⟨?_, h.wellFormed, h.out, h.count, h.fits⟩
    have hd := d.driver.departedBy_leave c item .skipped .delivered q
    rw [if_neg (by decide), List.append_nil, ← h.delivered] at hd
    exact hd.symm

theorem Batched.step {s : Driver} (h : Batched s) (op : Op) : Batched (Delivery.step s op) := by
  cases op with
  | emit c record => exact h.emit c record
  | getData request =>
    simp only [Delivery.step, getData]
    split
    · exact h
    · split
      · exact h
      · have hp := h.promote request.promoted
        have hdrain : Draining request.size
            (drainLoop request.size ⟨s.promote request.promoted, 0, [], []⟩) :=
          runLoop_invariant (fun d d' hb hd => hd.drainBody hb) _
            ⟨by simpa using hp.delivered, hp.wellFormed, rfl, rfl, Nat.zero_le _⟩
        refine ⟨?_, ?_⟩
        · have hd := hdrain.delivered
          simpa [Driver.noteBatch, Driver.departedBy] using hd
        · simp only [Driver.noteBatch, List.forall_mem_append, List.forall_mem_singleton]
          refine ⟨hdrain.wellFormed, hdrain.out, ?_⟩
          exact le_of_eq_of_le hdrain.count.symm hdrain.fits

/-! ## Termination of the drain -/

theorem queued_setQueue (s : Driver) {c : QueueClass} {item : Item} {q : Queue (capacity c)}
    (h : (s.queue c).items = item :: q.items) : (s.setQueue c q).queued + 1 = s.queued := by
  have hlen := congrArg List.length h
  rw [List.length_cons] at hlen
  cases c <;> simp [Driver.queued, Driver.setQueue_of_ne, hlen] <;> omega

theorem drainBody_queued {size : ℕ} {d d' : Drain} (h : drainBody size d = some d') :
    d'.driver.queued < d.driver.queued := by
  obtain ⟨c, hc⟩ := drainBody_popped h
  obtain ⟨item, q, hitems, ⟨-, rfl⟩ | ⟨-, -, rfl⟩⟩ := popped_cases hc
  · have hq : (d.driver.setQueue c q).queued + 1 = _ := queued_setQueue d.driver hitems
    show (d.driver.setQueue c q).queued < _
    omega
  · have hq : (d.driver.setQueue c q).queued + 1 = _ := queued_setQueue d.driver hitems
    show (d.driver.setQueue c q).queued < _
    omega

/-- The loop ends by its own break: nothing left, or every head needs a bigger buffer. -/
theorem drainLoop_breaks (size : ℕ) (d : Drain) : drainBody size (drainLoop size d) = none :=
  runLoop_breaks (fun d : Drain => d.driver.queued) (fun _ _ h => drainBody_queued h) le_rfl

/-! ## Conservation -/

theorem perm_by_class {α : Type} (cls : α → QueueClass) (l : List α) :
    l.Perm (queues.flatMap fun c => l.filter fun a => cls a = c) := by
  induction l with
  | nil => exact List.Perm.nil
  | cons a l ih =>
    simp only [queues, List.flatMap_cons, List.flatMap_nil, List.append_nil] at ih ⊢
    cases ha : cls a with
    | items => simpa [ha] using ih
    | files =>
      simp only [List.filter_cons, ha, reduceCtorEq, decide_false, decide_true, if_true,
        Bool.false_eq_true, if_false, List.cons_append]
      exact (ih.cons a).trans List.perm_middle.symm
    | drops =>
      simp only [List.filter_cons, ha, reduceCtorEq, decide_false, decide_true, if_true,
        Bool.false_eq_true, if_false]
      have hmid : (a :: (l.filter (fun a => cls a = .items) ++ l.filter (fun a => cls a = .files) ++
          l.filter fun a => cls a = .drops)).Perm
          (l.filter (fun a => cls a = .items) ++ l.filter (fun a => cls a = .files) ++
            a :: l.filter fun a => cls a = .drops) := List.perm_middle.symm
      rw [List.append_assoc, List.append_assoc] at hmid
      exact (ih.cons a).trans hmid

theorem map_pair_filter {α : Type} (cls : α → QueueClass) (item : α → Item) (l : List α)
    (c : QueueClass) :
    (l.filter fun a => cls a = c).map (fun a => (cls a, item a)) =
      ((l.filter fun a => cls a = c).map item).map fun i => (c, i) := by
  rw [List.map_map]
  apply List.map_congr_left
  intro a ha
  have hc : cls a = c := by simpa using (List.mem_filter.mp ha).2
  rw [hc]
  rfl

theorem pairs_by_class {α : Type} (cls : α → QueueClass) (item : α → Item) (l : List α) :
    (l.map fun a => (cls a, item a)).Perm
      (queues.flatMap fun c => ((l.filter fun a => cls a = c).map item).map fun i => (c, i)) := by
  have h := (perm_by_class cls l).map fun a => (cls a, item a)
  simpa only [List.map_flatMap, map_pair_filter] using h

theorem departures_perm (s : Driver) :
    (s.history.departures.map fun x => (x.cls, x.item)).Perm
      (s.departedBy .delivered ++ s.departedBy .evicted ++ s.departedBy .skipped) := by
  unfold Driver.departedBy
  induction s.history.departures with
  | nil => exact List.Perm.nil
  | cons x l ih =>
    cases hx : x.fate with
    | delivered => simpa [hx] using ih
    | evicted =>
      simp only [List.map_cons, List.filter_cons, hx, reduceCtorEq, decide_false, decide_true, if_true,
        Bool.false_eq_true, if_false, List.append_assoc, List.cons_append] at ih ⊢
      exact (ih.cons _).trans List.perm_middle.symm
    | skipped =>
      simp only [List.map_cons, List.filter_cons, hx, reduceCtorEq, decide_false, decide_true, if_true,
        Bool.false_eq_true, if_false] at ih ⊢
      exact (ih.cons _).trans List.perm_middle.symm

theorem Chained.linked_perm {s : Driver} (h : Chained s) :
    ((s.history.offers.filter Offer.linked).map fun o => (o.cls, o.item)).Perm
      ((s.history.departures.map fun x => (x.cls, x.item)) ++ s.linked) := by
  have hlinked := pairs_by_class Offer.cls Offer.item (s.history.offers.filter Offer.linked)
  have hchain : ∀ c, (((s.history.offers.filter Offer.linked).filter fun o => o.cls = c).map
      Offer.item).map (fun i => (c, i)) =
      (s.departedFrom c).map (fun i => (c, i)) ++ (s.queue c).items.map fun i => (c, i) := by
    intro c
    rw [← List.map_append, ← h.chain c, Driver.linkedTo, List.filter_filter]
    simp only [Bool.decide_and, Bool.decide_eq_true]
  simp only [hchain] at hlinked
  refine hlinked.trans ((List.flatMap_append_perm queues _ _).symm.trans ?_)
  exact (pairs_by_class Departure.cls Departure.item s.history.departures).symm.append_right s.linked

/-- Every record handed to a queue is in exactly one class. -/
theorem Chained.conserved {s : Driver} (h : Chained s) :
    s.offered.Perm (s.departedBy .delivered ++ s.linked ++ s.departedBy .evicted ++ s.refused ++
      s.departedBy .skipped) := by
  have hsplit := ((List.filter_append_perm Offer.linked s.history.offers).symm.map
    fun o => (o.cls, o.item))
  rw [List.map_append] at hsplit
  have hleft := h.linked_perm.trans ((departures_perm s).append_right s.linked)
  refine hsplit.trans ((hleft.append_right s.refused).trans ?_)
  rw [List.perm_iff_count]
  intro x
  simp only [List.count_append]
  omega

theorem Chained.offered_nodup {s : Driver} (h : Chained s) : s.offered.Nodup := by
  have hids : (s.offered.map fun x => x.2.id) = List.range s.history.allocated.length := by
    rw [← h.ids, h.allocated, Driver.offered, List.map_map, List.map_map]
    rfl
  exact List.Nodup.of_map _ (hids ▸ List.nodup_range)

/-- Records of one queue are delivered in push order. -/
theorem Chained.delivered_sublist {s : Driver} (h : Chained s) (c : QueueClass) :
    ((s.departedBy .delivered).filter fun x => x.1 = c).Sublist (s.offered.filter fun x => x.1 = c) := by
  have hleft : (s.departedFrom c).Sublist (s.linkedTo c) := by
    rw [h.chain c]
    exact List.sublist_append_left _ _
  have hdelivered : ((s.departedBy .delivered).filter fun x => x.1 = c).Sublist
      ((s.departedFrom c).map fun i => (c, i)) := by
    rw [Driver.departedBy, List.filter_map, Driver.departedFrom,
      ← map_pair_filter Departure.cls Departure.item]
    apply List.Sublist.map
    exact List.Sublist.filter _ List.filter_sublist
  have hoffered : ((s.linkedTo c).map fun i => (c, i)).Sublist
      (s.offered.filter fun x => x.1 = c) := by
    rw [Driver.offered, List.filter_map, Driver.linkedTo]
    have hpair : (fun x : QueueClass × Item => decide (x.1 = c)) ∘ (fun o : Offer => (o.cls, o.item)) =
        fun o => decide (o.cls = c) := rfl
    rw [hpair, map_pair_filter Offer.cls Offer.item]
    refine ((List.Sublist.map _ ?_).map _)
    exact List.monotone_filter_right _ fun o ho => by simp_all
  exact hdelivered.trans ((hleft.map _).trans hoffered)

/-- The whole account of a run. Every record handed to a queue is a block of its own and is in
exactly one class; each loss counter is the size of its class; the batches are the delivered
records, whole and back to back, each within its client's buffer and each queue in push order; no
queue exceeds its capacity; and every drain ends by its own break. -/
theorem run_accounts_for_every_record (ops : List Op) :
    let s := run step Driver.init ops
    s.offered.Nodup ∧
    s.offered.map Prod.snd = s.history.allocated ∧
    s.offered.Perm (s.history.batches.flatMap Batch.records ++ s.linked ++ s.departedBy .evicted ++
      s.refused ++ s.departedBy .skipped) ∧
    s.counters.queueOverwritten = ((s.departedBy .evicted).filter fun x => x.1 = .items).length ∧
    s.counters.filesOverwritten = ((s.departedBy .evicted).filter fun x => x.1 = .files).length ∧
    (∀ x ∈ s.departedBy .evicted, x.1 ≠ .drops) ∧
    s.counters.dropsStopped = s.refused.length ∧
    (∀ x ∈ s.refused, x.1 = .drops) ∧
    s.counters.oversizedSkipped = (s.departedBy .skipped).length ∧
    (∀ c, ((s.history.batches.flatMap Batch.records).filter fun x => x.1 = c).Sublist
      (s.offered.filter fun x => x.1 = c)) ∧
    (∀ c, (s.queue c).items.length ≤ capacity c) ∧
    (∀ b ∈ s.history.batches, b.bytes = b.records.flatMap (fun x => x.2.bytes) ∧
      b.bytes.length ≤ b.bufferSize) ∧
    (∀ size d, drainBody size (drainLoop size d) = none) := by
  intro s
  have hchain : Chained s := chained_stepClosed.run chained_init ops
  have hcount : Counted s := counted_stepClosed.run counted_init ops
  have hbatch : Batched s := run_invariant (fun _ op h => h.step op) batched_init ops
  rw [hbatch.delivered]
  refine ⟨hchain.offered_nodup, ?_, hchain.conserved, hcount.1, hcount.2, hcount.3, hcount.4,
    hcount.5, hcount.6, hchain.delivered_sublist, fun c => (s.queue c).bounded, hbatch.wellFormed,
    drainLoop_breaks⟩
  rw [hchain.allocated, Driver.offered, List.map_map]
  rfl

end SecOutfall.Delivery
