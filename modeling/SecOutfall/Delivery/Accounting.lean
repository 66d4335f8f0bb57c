import SecOutfall.Delivery.Driver

/-! Every record is accounted for: the queues neither lose nor duplicate one.

The invariant behind it is one equation a queue, `Chained.chain`: what was linked, in push order,
is what has left, in the order of leaving, followed by what is still linked. Conservation, the
order of delivery and the ownership of the blocks are all read off it. -/
namespace SecOutfall.Delivery
open Runs
set_option autoImplicit false

/-! ## What a step can do -/

namespace Driver

def link (s : Driver) (c : QueueClass) (item : Item) (q : Queue (capacity c)) : Driver :=
  ((s.noteAllocated item).setQueue c q).noteOffer c item true

def refuse (s : Driver) (item : Item) : Driver :=
  { (s.noteAllocated item).noteOffer .drops item false with
    counters.dropsStopped := s.counters.dropsStopped + 1 }

def leave (s : Driver) (c : QueueClass) (item : Item) (fate : Fate) (q : Queue (capacity c)) :
    Driver :=
  ((s.setQueue c q).noteDeparture c item fate).exFreePool item

def linkOver (s : Driver) (c : QueueClass) (item old : Item) (q : Queue (capacity c)) : Driver :=
  (((s.link c item q).noteDeparture c old .evicted).exFreePool old).countOverflow c

end Driver

/-- All that one emission can do. -/
theorem emit_cases (s : Driver) (c : QueueClass) (record : Option Driver.WireRecord) :
    (record = none ∧
      s.emit c record = { s with counters.allocFailures := s.counters.allocFailures + 1 }) ∨
    ∃ r, record = some r ∧
      ((c = .drops ∧ (s.queue .drops).items.length = capacity .drops ∧
          s.emit c record = s.refuse (s.newItem r)) ∨
        (∃ q, q.items = (s.queue c).items ++ [s.newItem r] ∧
          s.emit c record = s.link c (s.newItem r) q) ∨
        (c ≠ .drops ∧ ∃ old q, old :: q.items = (s.queue c).items ++ [s.newItem r] ∧
          s.emit c record = s.linkOver c (s.newItem r) old q)) := by
  cases record with
  | none => exact Or.inl ⟨rfl, rfl⟩
  | some r =>
    refine Or.inr ⟨r, rfl, ?_⟩
    have hpush (hc : c ≠ .drops) : s.emit c (some r) =
        (s.noteAllocated (s.newItem r)).pushRecord c (s.newItem r) := by
      cases c with
      | drops => exact absurd rfl hc
      | items => rfl
      | files => rfl
    by_cases hc : c = .drops
    · subst hc
      cases ht : (s.queue .drops).tryPush (s.newItem r) with
      | none =>
        refine Or.inl ⟨rfl, Queue.tryPush_eq_none.mp ht, ?_⟩
        simp [Driver.emit, Driver.pushDropRecord, Driver.noteAllocated, ht, Driver.refuse]
      | some q =>
        refine Or.inr (Or.inl ⟨q, Queue.tryPush_items ht, ?_⟩)
        simp [Driver.emit, Driver.pushDropRecord, Driver.noteAllocated, ht, Driver.link]
    · have hitems := Queue.push_items (s.queue c) (s.newItem r)
      cases hold : ((s.queue c).push (s.newItem r)).2 with
      | none =>
        refine Or.inr (Or.inl ⟨((s.queue c).push (s.newItem r)).1, by simpa [hold] using hitems, ?_⟩)
        simp [hpush hc, Driver.pushRecord, Driver.noteAllocated, hold, Driver.link]
      | some old =>
        refine Or.inr (Or.inr ⟨hc, old, ((s.queue c).push (s.newItem r)).1,
          by simpa [hold] using hitems, ?_⟩)
        simp [hpush hc, Driver.pushRecord, Driver.noteAllocated, hold, Driver.linkOver, Driver.link]

/-- All that a successful `tryPop` can do. -/
theorem popped_cases {size : ℕ} {d d' : Drain} {c : QueueClass} (h : popped size d c = some d') :
    ∃ item q, (d.driver.queue c).items = item :: q.items ∧
      ((item.size ≤ size - d.count ∧ d' = d.deliver c item q) ∨
        (size < item.size ∧ size - d.count < item.size ∧ d' = d.skip c item q)) := by
  unfold popped tryPop at h
  cases hfits : (d.driver.queue c).popIfFits (size - d.count) with
  | some popped =>
    obtain ⟨item, q⟩ := popped
    obtain ⟨hitems, hle⟩ := Queue.popIfFits_items hfits
    simp only [hfits, Option.some.injEq] at h
    exact ⟨item, q, hitems, Or.inl ⟨hle, h.symm⟩⟩
  | none =>
    simp only [hfits] at h
    by_cases h0 : (d.driver.queue c).headSize = 0
    · simp [h0] at h
    · by_cases hover : (d.driver.queue c).headSize > size
      · cases hpop : (d.driver.queue c).pop with
        | none => simp [h0, hover, hpop] at h
        | some popped =>
          obtain ⟨item, q⟩ := popped
          have hitems := Queue.pop_items hpop
          have hsize : (d.driver.queue c).headSize = item.size := by
            simp [Queue.headSize, hitems]
          simp only [h0, hover, hpop, if_true, if_false, Option.some.injEq] at h
          exact ⟨item, q, hitems, Or.inr ⟨by omega, by omega, h.symm⟩⟩
      · simp [h0, hover] at h

theorem drainBody_popped {size : ℕ} {d d' : Drain} (h : drainBody size d = some d') :
    ∃ c, popped size d c = some d' := by
  unfold drainBody at h
  cases ho : oldest d.driver with
  | none => simp [ho] at h
  | some c =>
    cases hp : popped size d c with
    | some d'' =>
      simp only [ho, hp] at h
      exact ⟨c, hp.trans h⟩
    | none =>
      simp only [ho, hp] at h
      obtain ⟨c', -, hc'⟩ := List.exists_of_findSome?_eq_some h
      exact ⟨c', hc'⟩

/-- A property of the driver that no step can break, action by action. -/
structure StepClosed (I : Driver → Prop) : Prop where
  allocFailed : ∀ s : Driver, I s →
    I { s with counters.allocFailures := s.counters.allocFailures + 1 }
  refuse : ∀ (s : Driver) r, I s → (s.queue .drops).items.length = capacity .drops →
    I (s.refuse (s.newItem r))
  link : ∀ (s : Driver) c r q, I s → q.items = (s.queue c).items ++ [s.newItem r] →
    I (s.link c (s.newItem r) q)
  linkOver : ∀ (s : Driver) c r old q, c ≠ .drops → I s →
    old :: q.items = (s.queue c).items ++ [s.newItem r] → I (s.linkOver c (s.newItem r) old q)
  deliver : ∀ (s : Driver) c item q, I s → (s.queue c).items = item :: q.items →
    I (s.leave c item .delivered q)
  skip : ∀ (s : Driver) c item q, I s → (s.queue c).items = item :: q.items →
    I { s.leave c item .skipped q with
      counters.oversizedSkipped := s.counters.oversizedSkipped + 1 }
  batch : ∀ (s : Driver) b, I s → I (s.noteBatch b)

namespace StepClosed

variable {I : Driver → Prop}

theorem emit (hI : StepClosed I) {s : Driver} (hs : I s) (c : QueueClass)
    (record : Option Driver.WireRecord) : I (s.emit c record) := by
  obtain ⟨-, he⟩ | ⟨r, -, ⟨-, hfull, he⟩ | ⟨q, hq, he⟩ | ⟨hc, old, q, hq, he⟩⟩ :=
    emit_cases s c record
  · rw [he]
    exact hI.allocFailed s hs
  · rw [he]
    exact hI.refuse s r hs hfull
  · rw [he]
    exact hI.link s c r q hs hq
  · rw [he]
    exact hI.linkOver s c r old q hc hs hq

theorem promote (hI : StepClosed I) {s : Driver} (hs : I s)
    (records : List (Option Driver.WireRecord)) : I (s.promote records) := by
  induction records generalizing s with
  | nil => exact hs
  | cons record records ih => exact ih (hI.emit hs .files record)

theorem drainBody (hI : StepClosed I) {size : ℕ} {d d' : Drain}
    (h : Delivery.drainBody size d = some d') (hd : I d.driver) : I d'.driver := by
  obtain ⟨c, hc⟩ := drainBody_popped h
  obtain ⟨item, q, hitems, ⟨-, rfl⟩ | ⟨-, -, rfl⟩⟩ := popped_cases hc
  · exact hI.deliver d.driver c item q hd hitems
  · exact hI.skip d.driver c item q hd hitems

theorem step (hI : StepClosed I) {s : Driver} (hs : I s) (op : Op) : I (Delivery.step s op) := by
  cases op with
  | emit c record => exact hI.emit hs c record
  | getData request =>
    simp only [Delivery.step, getData]
    split
    · exact hs
    · split
      · exact hs
      · apply hI.batch
        exact runLoop_invariant (I := fun d : Drain => I d.driver)
          (s := ⟨s.promote request.promoted, 0, [], []⟩) (fun d d' h hd => hI.drainBody h hd) _
          (hI.promote hs request.promoted)

theorem run (hI : StepClosed I) {s : Driver} (hs : I s) (ops : List Op) :
    I (Runs.run Delivery.step s ops) :=
  run_invariant (I := I) (fun _ op h => hI.step h op) hs ops

end StepClosed

/-! ## The invariants -/

namespace Driver

def linkedTo (s : Driver) (c : QueueClass) : List Item :=
  (s.history.offers.filter fun o => o.cls = c ∧ o.linked).map Offer.item

def departedFrom (s : Driver) (c : QueueClass) : List Item :=
  (s.history.departures.filter fun x => x.cls = c).map Departure.item

theorem linkedTo_link (s : Driver) (c c' : QueueClass) (item : Item) (q : Queue (capacity c)) :
    (s.link c item q).linkedTo c' = s.linkedTo c' ++ if c = c' then [item] else [] := by
  by_cases h : c = c' <;>
    simp [linkedTo, link, noteOffer, noteAllocated, setQueue, List.filter_append, h]

theorem linkedTo_refuse (s : Driver) (item : Item) (c : QueueClass) :
    (s.refuse item).linkedTo c = s.linkedTo c := by
  simp [linkedTo, refuse, noteOffer, noteAllocated, List.filter_append]

theorem departedFrom_noteDeparture (s : Driver) (c c' : QueueClass) (item : Item) (fate : Fate) :
    (s.noteDeparture c item fate).departedFrom c' =
      s.departedFrom c' ++ if c = c' then [item] else [] := by
  by_cases h : c = c' <;> simp [departedFrom, noteDeparture, List.filter_append, h]

@[simp] theorem countOverflow_queue (s : Driver) (c : QueueClass) :
    (s.countOverflow c).queue = s.queue := by
  cases c <;> rfl

@[simp] theorem countOverflow_history (s : Driver) (c : QueueClass) :
    (s.countOverflow c).history = s.history := by
  cases c <;> rfl

end Driver

structure Chained (s : Driver) : Prop where
  chain : ∀ c, s.linkedTo c = s.departedFrom c ++ (s.queue c).items
  allocated : s.history.allocated = s.history.offers.map Offer.item
  ids : s.history.allocated.map Item.id = List.range s.history.allocated.length
  freed : s.history.freed = s.history.departures.map Departure.item

theorem chained_init : Chained Driver.init where
  chain _ := rfl
  allocated := rfl
  ids := rfl
  freed := rfl

namespace Chained

variable {s : Driver}

theorem congr {s' : Driver} (h : Chained s) (hqueue : s'.queue = s.queue)
    (hhistory : s'.history = s.history) : Chained s' where
  chain c := by
    have hc := h.chain c
    rwa [Driver.linkedTo, Driver.departedFrom, ← hhistory, ← hqueue] at hc
  allocated := by rw [hhistory]; exact h.allocated
  ids := by rw [hhistory]; exact h.ids
  freed := by rw [hhistory]; exact h.freed

/-- A step that links `new` into `c` and lets `gone` leave it keeps the chains, when the old chain
with `new` behind it is the new chain with `gone` in front of it. -/
theorem chain_of {s' : Driver} (h : Chained s) {c : QueueClass} (gone new : List Item)
    {q : Queue (capacity c)}
    (hlinked : ∀ c', s'.linkedTo c' = s.linkedTo c' ++ if c = c' then new else [])
    (hdeparted : ∀ c', s'.departedFrom c' = s.departedFrom c' ++ if c = c' then gone else [])
    (hqueue : s'.queue = (s.setQueue c q).queue)
    (hq : (s.queue c).items ++ new = gone ++ q.items) (c' : QueueClass) :
    s'.linkedTo c' = s'.departedFrom c' ++ (s'.queue c').items := by
  rw [hlinked, hdeparted, hqueue, h.chain c']
  by_cases heq : c = c'
  · subst heq
    rw [if_pos rfl, if_pos rfl, Driver.setQueue_self, List.append_assoc, hq, List.append_assoc]
  · rw [if_neg heq, if_neg heq, s.setQueue_of_ne q (fun he => heq he.symm), List.append_nil,
      List.append_nil]

theorem leave (h : Chained s) {c : QueueClass} {item : Item} {q : Queue (capacity c)}
    (hq : (s.queue c).items = item :: q.items) (fate : Fate) : Chained (s.leave c item fate q) := by
  refine ⟨h.chain_of [item] [] (fun c' => ?_)
    (fun c' => s.departedFrom_noteDeparture c c' item fate) rfl (by simpa using hq),
    h.allocated, h.ids, ?_⟩
  · simp only [ite_self, List.append_nil]
    rfl
  · simp [Driver.leave, Driver.noteDeparture, Driver.exFreePool, Driver.setQueue, h.freed]

theorem ids_newItem (h : Chained s) (r : Driver.WireRecord) :
    (s.history.allocated ++ [s.newItem r]).map Item.id =
      List.range (s.history.allocated ++ [s.newItem r]).length := by
  rw [List.map_append, h.ids, List.length_append, List.length_singleton, List.range_succ]
  rfl

end Chained

theorem chained_stepClosed : StepClosed Chained where
  allocFailed s h := h.congr rfl rfl
  refuse s r h hfull := by
    refine ⟨fun c => (s.linkedTo_refuse _ c).trans (h.chain c), ?_, h.ids_newItem r, h.freed⟩
    simp [Driver.refuse, Driver.noteAllocated, Driver.noteOffer, h.allocated]
  link s c r q h hq := by
    refine ⟨h.chain_of [] [s.newItem r] (fun c' => s.linkedTo_link c c' _ q) (fun c' => ?_) rfl
      (by simpa using hq.symm), ?_, h.ids_newItem r, h.freed⟩
    · simp only [ite_self, List.append_nil]
      rfl
    · simp [Driver.link, Driver.noteAllocated, Driver.noteOffer, Driver.setQueue, h.allocated]
  linkOver s c r old q hdrops h hq := by
    refine Chained.congr (s := ((s.link c (s.newItem r) q).noteDeparture c old .evicted).exFreePool old)
      ?_ (Driver.countOverflow_queue _ _) (Driver.countOverflow_history _ _)
    refine ⟨h.chain_of [old] [s.newItem r] (fun c' => s.linkedTo_link c c' _ q)
      (fun c' => (s.link c _ q).departedFrom_noteDeparture c c' old .evicted) rfl
      (by simpa using hq.symm), ?_, h.ids_newItem r, ?_⟩
    · simp [Driver.exFreePool, Driver.noteDeparture, Driver.link, Driver.noteAllocated,
        Driver.noteOffer, Driver.setQueue, h.allocated]
    · simp [Driver.exFreePool, Driver.noteDeparture, Driver.link, Driver.noteAllocated,
        Driver.noteOffer, Driver.setQueue, h.freed]
  deliver s c item q h hq := h.leave hq .delivered
  skip s c item q h hq := (h.leave hq .skipped).congr rfl rfl
  batch s b h := ⟨h.chain, h.allocated, h.ids, h.freed⟩

end SecOutfall.Delivery
