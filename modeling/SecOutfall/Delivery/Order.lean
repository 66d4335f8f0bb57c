import SecOutfall.Delivery.Conservation
import SecOutfall.Wire.RoundTrip

/-! The order of the merged drain.

The drain pops the globally oldest head while it fits. When it does not fit, the drain goes on
with the other queues, and a newer head that does fit overtakes it. `Orderly` says that no queued
record can be overtaken in a buffer of the given size; along such requests the batches of a run,
put end to end, are in sequence order. -/
namespace SecOutfall.Delivery
open Runs
set_option autoImplicit false

/-! ## Sequences -/

def Increasing (s : Driver) : Prop :=
  s.history.offers.Pairwise fun o o' => o.item.sequence < o'.item.sequence

theorem Chained.offer_of_mem {s : Driver} (h : Chained s) {c : QueueClass} {x : Item}
    (hx : x ∈ (s.queue c).items) : ⟨c, x, true⟩ ∈ s.history.offers := by
  have hmem : x ∈ s.linkedTo c := by
    rw [h.chain c]
    exact List.mem_append_right _ hx
  obtain ⟨o, ho, rfl⟩ := List.mem_map.mp hmem
  simp only [List.mem_filter, decide_eq_true_eq] at ho
  obtain ⟨hmem', rfl, hlinked⟩ := ho
  cases o
  simp_all

theorem Chained.offer_of_departed {s : Driver} (h : Chained s) {fate : Fate} {x : QueueClass × Item}
    (hx : x ∈ s.departedBy fate) : ∃ o ∈ s.history.offers, o.item = x.2 := by
  obtain ⟨y, hy, rfl⟩ := List.mem_map.mp hx
  have hmem : y.item ∈ s.linkedTo y.cls := by
    rw [h.chain y.cls]
    refine List.mem_append_left _ (List.mem_map_of_mem ?_)
    simpa using (List.mem_filter.mp hy).1
  obtain ⟨o, ho, hitem⟩ := List.mem_map.mp hmem
  exact ⟨o, (List.mem_filter.mp ho).1, hitem⟩

theorem Chained.sorted {s : Driver} (h : Chained s) (hinc : Increasing s) (c : QueueClass) :
    (s.queue c).items.Pairwise fun x y => x.sequence < y.sequence := by
  have hlinked : (s.linkedTo c).Pairwise fun x y => x.sequence < y.sequence :=
    List.pairwise_map.mpr (List.Pairwise.filter _ hinc)
  rw [h.chain c] at hlinked
  exact (List.pairwise_append.mp hlinked).2.1

theorem increasing_inj {s : Driver} (hinc : Increasing s) {o o' : Offer}
    (ho : o ∈ s.history.offers) (ho' : o' ∈ s.history.offers)
    (heq : o.item.sequence = o'.item.sequence) : o = o' := by
  have hnodup : (s.history.offers.map fun o => o.item.sequence).Nodup :=
    List.pairwise_map.mpr (hinc.imp fun hlt => UInt64.ne_of_lt hlt)
  exact List.inj_on_of_nodup_map hnodup ho ho' heq

/-! ## The oldest head -/

/-- The scan keeps a head that is strictly below the limit and no later than any head it has
seen. -/
theorem oldest_spec {s : Driver} {c : QueueClass} (h : oldest s = some c) :
    (s.queue c).headSeq < Queue.maxULongLong ∧ ∀ c', (s.queue c).headSeq ≤ (s.queue c').headSeq := by
  simp only [oldest, queues, List.foldl_cons, List.foldl_nil, scanHead] at h
  simp only [UInt64.lt_iff_toNat_lt, UInt64.le_iff_toNat_le] at h ⊢
  split_ifs at h <;> cases h <;> dsimp only at * <;>
    refine ⟨by omega, fun c' => ?_⟩ <;> cases c' <;> omega

theorem headSeq_le {n : ℕ} {q : Queue n} (hq : q.items.Pairwise fun x y => x.sequence < y.sequence)
    {y : Item} (hy : y ∈ q.items) : q.headSeq ≤ y.sequence := by
  cases hitems : q.items with
  | nil => simp [hitems] at hy
  | cons x rest =>
    rw [hitems] at hq hy
    rcases List.mem_cons.mp hy with rfl | hmem
    · simp [Queue.headSeq, hitems]
    · simp only [Queue.headSeq, hitems, List.head?_cons]
      exact UInt64.le_of_lt ((List.pairwise_cons.mp hq).1 y hmem)

theorem Chained.oldest_lt {s : Driver} (h : Chained s) (hinc : Increasing s) {c : QueueClass}
    {item : Item} {q : Queue (capacity c)} (ho : oldest s = some c)
    (hitems : (s.queue c).items = item :: q.items) (c' : QueueClass) {y : Item}
    (hy : y ∈ ((s.setQueue c q).queue c').items) : item.sequence < y.sequence := by
  by_cases hc : c' = c
  · subst hc
    rw [Driver.setQueue_self] at hy
    have hs := h.sorted hinc c'
    rw [hitems] at hs
    exact (List.pairwise_cons.mp hs).1 y hy
  · rw [s.setQueue_of_ne q hc] at hy
    have hhead : (s.queue c).headSeq = item.sequence := by simp [Queue.headSeq, hitems]
    have hle : item.sequence ≤ y.sequence := by
      have h1 := (oldest_spec ho).2 c'
      have h2 := headSeq_le (h.sorted hinc c') hy
      rw [hhead] at h1
      exact UInt64.le_trans h1 h2
    refine UInt64.lt_of_le_of_ne hle fun heq => hc ?_
    have hitem := h.offer_of_mem (c := c) (x := item) (by rw [hitems]; exact List.mem_cons_self)
    have hsame := increasing_inj hinc hitem (h.offer_of_mem hy) heq
    exact (congrArg Offer.cls hsame).symm

/-! ## Records that cannot be overtaken -/

def olderIn (size : ℕ) (seq : UInt64) (items : List Item) : ℕ :=
  ((items.filter fun x => x.size ≤ size ∧ x.sequence < seq).map Item.size).sum

namespace Driver

/-- Bytes a drain into `size` has to deliver before it gets to sequence `seq`. -/
def olderBytes (s : Driver) (size : ℕ) (seq : UInt64) : ℕ :=
  (queues.map fun c => olderIn size seq (s.queue c).items).sum

/-- The first record of `c` newer than `seq` that fits the buffer at all. -/
def firstNewer (s : Driver) (size : ℕ) (c : QueueClass) (seq : UInt64) : Option Item :=
  (s.queue c).items.find? fun x => x.size ≤ size ∧ seq < x.sequence

end Driver

/-- With `count` bytes in a buffer of `size`: a queued record that the records older than it leave
no room for leaves none for the next record of any other queue either. -/
def Orderly (size count : ℕ) (s : Driver) : Prop :=
  ∀ c, ∀ r ∈ (s.queue c).items, r.size ≤ size →
    size < count + s.olderBytes size r.sequence + r.size →
    ∀ c', c' ≠ c → ∀ x, s.firstNewer size c' r.sequence = some x →
      size < count + s.olderBytes size r.sequence + x.size

theorem olderIn_cons (size : ℕ) (seq : UInt64) (x : Item) (items : List Item) :
    olderIn size seq (x :: items) =
      (if x.size ≤ size ∧ x.sequence < seq then x.size else 0) + olderIn size seq items := by
  by_cases h : x.size ≤ size ∧ x.sequence < seq <;> simp [olderIn, h]

theorem olderBytes_setQueue (s : Driver) {c : QueueClass} {item : Item} {q : Queue (capacity c)}
    (hitems : (s.queue c).items = item :: q.items) (size : ℕ) (seq : UInt64) :
    s.olderBytes size seq =
      (if item.size ≤ size ∧ item.sequence < seq then item.size else 0) +
        (s.setQueue c q).olderBytes size seq := by
  have hcons := olderIn_cons size seq item q.items
  cases c <;> simp [Driver.olderBytes, queues, Driver.setQueue_of_ne, hitems, hcons] <;> omega

theorem firstNewer_setQueue (s : Driver) {c : QueueClass} {item : Item} {q : Queue (capacity c)}
    (hitems : (s.queue c).items = item :: q.items) {size : ℕ} {seq : UInt64}
    (hitem : ¬ (item.size ≤ size ∧ seq < item.sequence)) (c' : QueueClass) :
    (s.setQueue c q).firstNewer size c' seq = s.firstNewer size c' seq := by
  by_cases hc : c' = c
  · subst hc
    rw [Driver.firstNewer, Driver.firstNewer, Driver.setQueue_self, hitems,
      List.find?_cons_of_neg (by simpa using hitem)]
  · rw [Driver.firstNewer, Driver.firstNewer, s.setQueue_of_ne q hc]

theorem mem_setQueue (s : Driver) {c : QueueClass} {item : Item} {q : Queue (capacity c)}
    (hitems : (s.queue c).items = item :: q.items) {c' : QueueClass} {r : Item}
    (hr : r ∈ ((s.setQueue c q).queue c').items) : r ∈ (s.queue c').items := by
  by_cases hc : c' = c
  · subst hc
    rw [Driver.setQueue_self] at hr
    rw [hitems]
    exact List.mem_cons_of_mem _ hr
  · rwa [s.setQueue_of_ne q hc] at hr

/-- Delivering the oldest head moves its bytes from what is to come to what is there. -/
theorem Orderly.deliver {size count : ℕ} {s : Driver} (h : Orderly size count s) {c : QueueClass}
    {item : Item} {q : Queue (capacity c)} (hitems : (s.queue c).items = item :: q.items)
    (hsize : item.size ≤ size)
    (hlt : ∀ c', ∀ y ∈ ((s.setQueue c q).queue c').items, item.sequence < y.sequence) :
    Orderly size (count + item.size) (s.setQueue c q) := by
  intro c₁ r hr hrsize hover c₂ hne x hx
  have hseq := hlt c₁ r hr
  have hbytes := olderBytes_setQueue s hitems size r.sequence
  rw [if_pos ⟨hsize, hseq⟩] at hbytes
  rw [firstNewer_setQueue s hitems fun hn => UInt64.lt_asymm hn.2 hseq] at hx
  have hmain := h c₁ r (mem_setQueue s hitems hr) hrsize (by omega) c₂ hne x hx
  omega

theorem Orderly.skip {size count : ℕ} {s : Driver} (h : Orderly size count s) {c : QueueClass}
    {item : Item} {q : Queue (capacity c)} (hitems : (s.queue c).items = item :: q.items)
    (hsize : size < item.size) : Orderly size count (s.setQueue c q) := by
  intro c₁ r hr hrsize hover c₂ hne x hx
  have hbytes := olderBytes_setQueue s hitems size r.sequence
  rw [if_neg (by omega), Nat.zero_add] at hbytes
  rw [← hbytes] at hover ⊢
  rw [firstNewer_setQueue s hitems (by omega)] at hx
  exact h c₁ r (mem_setQueue s hitems hr) hrsize hover c₂ hne x hx

/-! ## Buffers that hold all that is queued -/

def Driver.queuedBytes (s : Driver) : ℕ :=
  (queues.map fun c => ((s.queue c).items.map Item.size).sum).sum

theorem olderIn_le (size : ℕ) (seq : UInt64) (items : List Item) :
    olderIn size seq items ≤ (items.map Item.size).sum := by
  induction items with
  | nil => exact le_rfl
  | cons x items ih =>
    rw [olderIn_cons, List.map_cons, List.sum_cons]
    split_ifs <;> omega

theorem olderIn_add_le (size : ℕ) {r : Item} {items : List Item} (hr : r ∈ items) :
    olderIn size r.sequence items + r.size ≤ (items.map Item.size).sum := by
  induction items with
  | nil => exact absurd hr List.not_mem_nil
  | cons x items ih =>
    rw [olderIn_cons, List.map_cons, List.sum_cons]
    rcases List.mem_cons.mp hr with rfl | hmem
    · have hle := olderIn_le size r.sequence items
      rw [if_neg (fun hn => UInt64.lt_irrefl _ hn.2)]
      omega
    · have hrest := ih hmem
      split_ifs <;> omega

theorem orderly_of_fits {size : ℕ} {s : Driver} (h : s.queuedBytes ≤ size) : Orderly size 0 s := by
  intro c r hr _ hover
  have hown := olderIn_add_le size hr
  have hle := fun c' => olderIn_le size r.sequence (s.queue c').items
  have hi := hle .items
  have hf := hle .files
  have hd := hle .drops
  simp only [Driver.queuedBytes, Driver.olderBytes, queues, List.map_cons, List.map_nil, List.sum_cons,
    List.sum_nil] at h hover
  cases c <;> omega

/-! ## One drain -/

theorem drainBody_cases {size : ℕ} {d d' : Drain} (h : drainBody size d = some d') :
    ∃ o, oldest d.driver = some o ∧ (popped size d o = some d' ∨
      (popped size d o = none ∧ ∃ c, c ≠ o ∧ popped size d c = some d')) := by
  unfold drainBody at h
  cases ho : oldest d.driver with
  | none => simp [ho] at h
  | some o =>
    refine ⟨o, rfl, ?_⟩
    cases hp : popped size d o with
    | some d'' =>
      simp only [ho, hp] at h
      exact Or.inl h
    | none =>
      simp only [ho, hp] at h
      obtain ⟨c, hc, hpop⟩ := List.exists_of_findSome?_eq_some h
      exact Or.inr ⟨rfl, c, by simpa using (List.mem_filter.mp hc).2, hpop⟩

theorem popped_none {size : ℕ} {d : Drain} {c : QueueClass} (h : popped size d c = none)
    {item : Item} {rest : List Item} (hitems : (d.driver.queue c).items = item :: rest) :
    size - d.count < item.size ∧ item.size ≤ size := by
  by_cases hfits : size - d.count < item.size
  · refine ⟨hfits, ?_⟩
    by_contra hover
    have h0 : ¬ item.size = 0 := by omega
    simp [popped, tryPop, Queue.popIfFits, Queue.headSize, Queue.pop, hitems, hfits, h0,
      show item.size > size by omega] at h
  · simp [popped, tryPop, Queue.popIfFits, hitems, hfits] at h

/-- What has been delivered is in order and older than all that is linked. -/
structure Delivered (s : Driver) : Prop where
  inOrder : (s.departedBy .delivered).Pairwise fun x y => x.2.sequence < y.2.sequence
  before : ∀ x ∈ s.departedBy .delivered, ∀ c, ∀ y ∈ (s.queue c).items, x.2.sequence < y.sequence

/-- Invariant of the drain loop. -/
structure InOrder (size : ℕ) (d : Drain) : Prop where
  chained : Chained d.driver
  increasing : Increasing d.driver
  delivered : Delivered d.driver
  fits : d.count ≤ size
  orderly : Orderly size d.count d.driver

/-- The oldest head of another queue than `c`, when it was tried and stayed, has room for nothing
newer. -/
theorem InOrder.no_overtaking {size : ℕ} {d : Drain} (h : InOrder size d) {o c : QueueClass}
    (ho : oldest d.driver = some o) (hstay : popped size d o = none) (hne : c ≠ o) {item : Item}
    {q : Queue (capacity c)} (hitems : (d.driver.queue c).items = item :: q.items)
    (hsize : item.size ≤ size) : size - d.count < item.size := by
  have hfits := h.fits
  obtain ⟨hmax, hle⟩ := oldest_spec ho
  cases hhead : (d.driver.queue o).items with
  | nil => simp [Queue.headSeq, hhead] at hmax
  | cons r rest =>
    obtain ⟨hover, hrsize⟩ := popped_none hstay hhead
    have hrem : (d.driver.queue o).items = r :: (d.driver.queue o).removeHead.items := by
      simp [Queue.removeHead, hhead]
    -- nothing queued is older than `r`
    have holder : d.driver.olderBytes size r.sequence = 0 := by
      have hcons := olderBytes_setQueue d.driver hrem size r.sequence
      rw [if_neg (fun hn => UInt64.lt_irrefl _ hn.2), Nat.zero_add] at hcons
      have hzero : ∀ c', olderIn size r.sequence
          ((d.driver.setQueue o (d.driver.queue o).removeHead).queue c').items = 0 := by
        intro c'
        rw [olderIn, List.filter_eq_nil_iff.mpr, List.map_nil, List.sum_nil]
        intro y hy hlt
        have hgt := h.chained.oldest_lt h.increasing ho hrem _ hy
        simp only [decide_eq_true_eq] at hlt
        exact UInt64.lt_asymm hlt.2 hgt
      rw [hcons]
      simp [Driver.olderBytes, queues, hzero]
    have hnewer : r.sequence < item.sequence := by
      apply h.chained.oldest_lt h.increasing ho hrem c
      rw [d.driver.setQueue_of_ne _ hne, hitems]
      exact List.mem_cons_self
    have hfirst : d.driver.firstNewer size c r.sequence = some item := by
      rw [Driver.firstNewer, hitems, List.find?_cons_of_pos]
      simp [hsize, hnewer]
    have hroom := h.orderly o r (by rw [hhead]; exact List.mem_cons_self) hrsize (by omega) c hne item
      hfirst
    omega

theorem InOrder.drainBody {size : ℕ} {d d' : Drain} (h : InOrder size d)
    (hb : Delivery.drainBody size d = some d') : InOrder size d' := by
  have hchain := chained_stepClosed.drainBody hb h.chained
  obtain ⟨o, ho, hcase⟩ := drainBody_cases hb
  obtain ⟨c, hpop, hstay⟩ : ∃ c, popped size d c = some d' ∧ (c ≠ o → popped size d o = none) := by
    rcases hcase with hp | ⟨hnone, c, -, hp⟩
    · exact ⟨o, hp, fun hne => absurd rfl hne⟩
    · exact ⟨c, hp, fun _ => hnone⟩
  obtain ⟨item, q, hitems, ⟨hle, rfl⟩ | ⟨hover, -, rfl⟩⟩ := popped_cases hpop
  · -- a delivered head is the oldest one: another one would have overtaken it
    have hfits := h.fits
    have hco : c = o := by
      by_contra hne
      have hroom := h.no_overtaking ho (hstay hne) hne hitems (by omega)
      omega
    subst hco
    have hlt := fun c' y (hy : y ∈ ((d.driver.setQueue c q).queue c').items) =>
      h.chained.oldest_lt h.increasing ho hitems _ hy
    have hdel : (d.deliver c item q).driver.departedBy .delivered =
        d.driver.departedBy .delivered ++ [(c, item)] := by
      have hleave := d.driver.departedBy_leave c item .delivered .delivered q
      rwa [if_pos rfl] at hleave
    refine ⟨hchain, h.increasing, ⟨?_, ?_⟩, ?_, h.orderly.deliver hitems (by omega) hlt⟩
    · rw [hdel, List.pairwise_append]
      refine ⟨h.delivered.inOrder, List.pairwise_singleton _ _, fun x hx y hy => ?_⟩
      rw [List.mem_singleton.mp hy]
      exact h.delivered.before x hx c item (by rw [hitems]; exact List.mem_cons_self)
    · rw [hdel]
      intro x hx c' y hy
      rcases List.mem_append.mp hx with hold | hnew
      · exact h.delivered.before x hold c' y (mem_setQueue d.driver hitems hy)
      · rw [List.mem_singleton.mp hnew]
        exact hlt c' y hy
    · simp only [Drain.deliver]
      omega
  · have hdel : (d.skip c item q).driver.departedBy .delivered = d.driver.departedBy .delivered := by
      have hleave := d.driver.departedBy_leave c item .skipped .delivered q
      rwa [if_neg (by decide), List.append_nil] at hleave
    refine ⟨hchain, h.increasing, ⟨?_, ?_⟩, h.fits, h.orderly.skip hitems hover⟩
    · rw [hdel]
      exact h.delivered.inOrder
    · rw [hdel]
      exact fun x hx c' y hy => h.delivered.before x hx c' y (mem_setQueue d.driver hitems hy)

/-! ## Runs -/

theorem emit_offers (s : Driver) (c : QueueClass) (record : Option Driver.WireRecord) :
    (∃ linked, (s.emit c record).history.offers =
      s.history.offers ++ record.toList.map fun r => ⟨c, s.newItem r, linked⟩) ∧
    ∀ c', ∀ y ∈ ((s.emit c record).queue c').items,
      y ∈ (s.queue c').items ∨ ∃ r, record = some r ∧ y = s.newItem r := by
  obtain ⟨rfl, he⟩ | ⟨r, rfl, ⟨rfl, -, he⟩ | ⟨q, hq, he⟩ | ⟨-, old, q, hq, he⟩⟩ :=
    emit_cases s c record
  · rw [he]
    exact ⟨⟨true, (List.append_nil _).symm⟩, fun _ _ hy => Or.inl hy⟩
  · rw [he]
    exact ⟨⟨false, rfl⟩, fun _ _ hy => Or.inl hy⟩
  · rw [he]
    refine ⟨⟨true, rfl⟩, fun c' y hy => ?_⟩
    have hy' : y ∈ ((s.setQueue c q).queue c').items := hy
    by_cases hc : c' = c
    · subst hc
      rw [Driver.setQueue_self, hq, List.mem_append, List.mem_singleton] at hy'
      exact hy'.imp id fun hnew => ⟨r, rfl, hnew⟩
    · rw [s.setQueue_of_ne q hc] at hy'
      exact Or.inl hy'
  · rw [he]
    refine ⟨⟨true, by rw [Driver.linkOver, Driver.countOverflow_history]; rfl⟩, fun c' y hy => ?_⟩
    rw [Driver.linkOver, Driver.countOverflow_queue] at hy
    have hy' : y ∈ ((s.setQueue c q).queue c').items := hy
    by_cases hc : c' = c
    · subst hc
      rw [Driver.setQueue_self] at hy'
      have hmem : y ∈ old :: q.items := List.mem_cons_of_mem _ hy'
      rw [hq, List.mem_append, List.mem_singleton] at hmem
      exact hmem.imp id fun hnew => ⟨r, rfl, hnew⟩
    · rw [s.setQueue_of_ne q hc] at hy'
      exact Or.inl hy'

theorem promote_offers (s : Driver) (records : List (Option Driver.WireRecord)) :
    s.history.offers <+: (s.promote records).history.offers := by
  induction records generalizing s with
  | nil => exact List.prefix_rfl
  | cons record records ih =>
    obtain ⟨⟨linked, hoffers⟩, -⟩ := emit_offers s .files record
    exact (hoffers ▸ List.prefix_append _ _).trans (ih (s.emit .files record))

theorem drainLoop_offers (size : ℕ) (d : Drain) :
    (drainLoop size d).driver.history.offers = d.driver.history.offers := by
  refine runLoop_invariant
    (I := fun d' : Drain => d'.driver.history.offers = d.driver.history.offers)
    (fun d₁ d₂ h hd => ?_) _ rfl
  obtain ⟨c, hc⟩ := drainBody_popped h
  obtain ⟨item, q, -, ⟨-, rfl⟩ | ⟨-, -, rfl⟩⟩ := popped_cases hc
  · exact hd
  · exact hd

theorem getData_offers (s : Driver) (size : ℕ) (mdl mapped : Bool) :
    (getData s ⟨size, mdl, mapped, []⟩).2.history.offers = s.history.offers := by
  unfold getData
  split
  · rfl
  · split
    · rfl
    · exact drainLoop_offers size ⟨s, 0, [], []⟩

theorem step_offers (s : Driver) (op : Op) : s.history.offers <+: (step s op).history.offers := by
  cases op with
  | emit c record =>
    obtain ⟨⟨linked, hoffers⟩, -⟩ := emit_offers s c record
    exact hoffers ▸ List.prefix_append _ _
  | getData request =>
    simp only [step, getData]
    split
    · exact List.prefix_rfl
    · split
      · exact List.prefix_rfl
      · have hloop := drainLoop_offers request.size ⟨s.promote request.promoted, 0, [], []⟩
        have hprom := promote_offers s request.promoted
        exact hprom.trans ⟨[], by rw [List.append_nil]; exact hloop.symm⟩

theorem run_offers (s : Driver) (ops : List Op) :
    s.history.offers <+: (run step s ops).history.offers := by
  induction ops generalizing s with
  | nil => exact List.prefix_rfl
  | cons op ops ih => exact (step_offers s op).trans (ih (step s op))

theorem Delivered.emit {s : Driver} (h : Delivered s) (hchain : Chained s) (c : QueueClass)
    (record : Option Driver.WireRecord) (hinc : Increasing (s.emit c record)) :
    Delivered (s.emit c record) := by
  obtain ⟨hdel, -⟩ := emit_departedBy_delivered s c record
  obtain ⟨⟨linked, hoffers⟩, hmem⟩ := emit_offers s c record
  refine ⟨by rw [hdel]; exact h.inOrder, ?_⟩
  rw [hdel]
  intro x hx c' y hy
  rcases hmem c' y hy with hold | ⟨r, rfl, rfl⟩
  · exact h.before x hx c' y hold
  · rw [Increasing, hoffers, List.pairwise_append] at hinc
    obtain ⟨o, ho, hitem⟩ := hchain.offer_of_departed hx
    rw [← hitem]
    exact hinc.2.2 o ho ⟨c, s.newItem r, linked⟩ (by simp)

theorem Delivered.promote {s : Driver} (h : Delivered s) (hchain : Chained s)
    (records : List (Option Driver.WireRecord)) (hinc : Increasing (s.promote records)) :
    Delivered (s.promote records) := by
  induction records generalizing s with
  | nil => exact h
  | cons record records ih =>
    have hoffers : (s.emit .files record).history.offers <+:
        ((s.emit .files record).promote records).history.offers := promote_offers _ _
    exact ih (h.emit hchain .files record (hinc.sublist hoffers.sublist))
      (chained_stepClosed.emit hchain .files record) hinc

/-- The buffer of a request that reaches the drain is one in which nothing queued can be
overtaken. -/
def OrderlyRequest (s : Driver) : Op → Prop
  | .emit _ _ => True
  | .getData request =>
    request.accepted → request.mapped → Orderly request.size 0 (s.promote request.promoted)

theorem Delivered.step {s : Driver} (h : Delivered s) (hchain : Chained s) {op : Op}
    (hinc : Increasing (step s op)) (hop : OrderlyRequest s op) : Delivered (Delivery.step s op) := by
  cases op with
  | emit c record => exact h.emit hchain c record hinc
  | getData request =>
    simp only [Delivery.step, getData] at hinc ⊢
    split at hinc
    · rename_i hrej
      rw [if_pos hrej]
      exact h
    · rename_i hacc
      rw [if_neg hacc]
      split at hinc
      · rename_i hunmapped
        rw [if_pos hunmapped]
        exact h
      · rename_i hmapped
        rw [if_neg hmapped]
        have hpinc : Increasing (s.promote request.promoted) := by
          have hloop := drainLoop_offers request.size ⟨s.promote request.promoted, 0, [], []⟩
          simp only [Increasing, Driver.noteBatch, hloop] at hinc
          exact hinc
        have hstart : InOrder request.size ⟨s.promote request.promoted, 0, [], []⟩ :=
          ⟨chained_stepClosed.promote hchain request.promoted, hpinc,
            h.promote hchain request.promoted hpinc, Nat.zero_le _,
            hop (by simpa using hacc) (by simpa using hmapped)⟩
        have hend : InOrder request.size
            (drainLoop request.size ⟨s.promote request.promoted, 0, [], []⟩) :=
          runLoop_invariant (fun _ _ hb hd => hd.drainBody hb) _ hstart
        exact ⟨hend.delivered.inOrder, hend.delivered.before⟩

/-- Along requests with orderly buffers, records pushed in increasing order are drained in
increasing order, across batches. -/
theorem batches_in_order (ops : List Op) (hinc : Increasing (run step Driver.init ops))
    (hops : Along step OrderlyRequest Driver.init ops) :
    ((run step Driver.init ops).history.batches.flatMap Batch.records).Pairwise
      fun x y => x.2.sequence < y.2.sequence := by
  have hdelivered : ∀ (s : Driver) (ops : List Op), Chained s → Delivered s →
      Increasing (run step s ops) → Along step OrderlyRequest s ops →
      Delivered (run step s ops) := by
    intro s ops
    induction ops generalizing s with
    | nil => exact fun _ h _ _ => h
    | cons op ops ih =>
      intro hchain h hinc halong
      have hmid : Increasing (step s op) := hinc.sublist (run_offers (step s op) ops).sublist
      exact ih (step s op) (chained_stepClosed.step hchain op) (h.step hchain hmid halong.1) hinc
        halong.2
  have hbatch : Batched (run step Driver.init ops) :=
    run_invariant (fun _ op h => h.step op) batched_init ops
  rw [hbatch.delivered]
  refine (hdelivered Driver.init ops chained_init ⟨List.Pairwise.nil, ?_⟩ hinc hops).inOrder
  exact fun x hx => absurd hx List.not_mem_nil

def exitsThenDrain : List Op :=
  [.emit .items (some ⟨1, Wire.emitProcessExited 8 0 ⟨1, 0⟩⟩),
   .emit .items (some ⟨2, Wire.emitProcessExited 12 0 ⟨2, 0⟩⟩),
   .getData ⟨Wire.maxRecordBytes, true, true, []⟩]

theorem exitsThenDrain_in_order :
    ((run step Driver.init exitsThenDrain).history.batches.flatMap Batch.records).Pairwise
      fun x y => x.2.sequence < y.2.sequence := by
  have hlen : ∀ pid createTime stamp, (Wire.emitProcessExited pid createTime stamp).length = 48 := by
    intro pid createTime stamp
    simp [Wire.emitProcessExited]
  refine batches_in_order exitsThenDrain ?_ ⟨trivial, trivial, fun _ _ => orderly_of_fits ?_, trivial⟩
  · simp [Increasing, exitsThenDrain, run, step, getData_offers, Driver.emit, Driver.pushRecord,
      Queue.push, Driver.init, Queue.empty, capacity, Driver.noteAllocated, Driver.noteOffer,
      Driver.setQueue, Driver.newItem]
  · simp [Driver.queuedBytes, queues, Driver.promote, step, Driver.emit, Driver.pushRecord, Queue.push,
      Driver.init, Queue.empty, capacity, Driver.noteAllocated, Driver.noteOffer, Driver.setQueue,
      Driver.newItem, Item.size, hlen]

/-! ## Overtaking -/

/-- `a`, then `b` in one queue and the newer `c` in another: `b` does not fit behind `a` but `c`
does. -/
def overtakingRun (a b c : Driver.WireRecord) (size : ℕ) : List Op :=
  [.emit .items (some a), .emit .items (some b), .emit .files (some c),
   .getData ⟨size, true, true, []⟩, .getData ⟨size, true, true, []⟩]

theorem overtakingRun_sequences (size : ℕ) {a b c : Driver.WireRecord}
    (hsize : Wire.maxRecordBytes ≤ size) (hab : size < a.bytes.length + b.bytes.length)
    (hac : a.bytes.length + c.bytes.length ≤ size) (hb : b.bytes.length ≤ size)
    (h1 : a.sequence = 1) (h2 : b.sequence = 2) (h3 : c.sequence = 3) :
    (((run step Driver.init (overtakingRun a b c size)).history.batches.flatMap
      Batch.records).map fun x => x.2.sequence) = [1, 3, 2] := by
  have haccept : ¬ size < 9280 := by simpa using hsize
  have hnonzero : ¬ size = 0 := by omega
  have hfitsA : ¬ size < a.bytes.length := by omega
  have hstaysB : size - a.bytes.length < b.bytes.length := by omega
  have hfitsC : ¬ size - a.bytes.length < c.bytes.length := by omega
  have hstaysB' : size - (a.bytes.length + c.bytes.length) < b.bytes.length := by omega
  have hnotOver : ¬ size < b.bytes.length := by omega
  have hnotEmpty : ¬ b.bytes.length = 0 := by omega
  simp [overtakingRun, run, step, getData, GetData.accepted, haccept, hnonzero, Driver.promote,
    drainLoop, Driver.emit, Driver.pushRecord, Queue.push, Driver.init, Queue.empty, capacity,
    Driver.noteAllocated, Driver.noteOffer, Driver.setQueue, Driver.newItem, Driver.queued, runLoop,
    drainBody, oldest, queues, scanHead, Queue.headSeq, Queue.maxULongLong, popped, tryPop,
    Queue.popIfFits, Queue.removeHead, Queue.headSize, Item.size, Drain.deliver, Driver.noteDeparture,
    Driver.exFreePool, Driver.noteBatch, Function.update, h1, h2, h3, hfitsA, hstaysB, hfitsC,
    hstaysB', hnotOver, hnotEmpty]

theorem overtakingRun_increasing {a b c : Driver.WireRecord} (size : ℕ)
    (h1 : a.sequence = 1) (h2 : b.sequence = 2) (h3 : c.sequence = 3) :
    Increasing (run step Driver.init (overtakingRun a b c size)) := by
  simp [Increasing, overtakingRun, run, step, getData_offers, Driver.emit, Driver.pushRecord, Queue.push,
    Driver.init, Queue.empty, capacity, Driver.noteAllocated, Driver.noteOffer, Driver.setQueue,
    Driver.newItem, h1, h2, h3]

def longCommandLine (stamp : Wire.Stamp) : Driver.WireRecord :=
  ⟨stamp.sequence, Wire.emitProcessCreated 8 4
    (some ⟨List.replicate 8192 0, by rw [List.length_replicate]; omega⟩) none stamp⟩

def namelessFile (stamp : Wire.Stamp) : Driver.WireRecord :=
  ⟨stamp.sequence, Wire.emitFileRecord .fileCreated none 8 0 stamp⟩

theorem longCommandLine_length (stamp : Wire.Stamp) : (longCommandLine stamp).bytes.length = 8256 := by
  have hcopy : (Wire.copyNameW (some ⟨List.replicate 8192 0, by rw [List.length_replicate]; omega⟩)
      Wire.maxCommandLineBytes).bytes.length = 8192 := by
    rw [Wire.copyNameW_some, List.length_take, List.length_replicate]
    rfl
  simp only [longCommandLine, Wire.emitProcessCreated, Bytes.writeAll_length, Wire.orTruncFlags_length,
    Wire.allocRecord_length, hcopy]
  rfl

theorem namelessFile_length (stamp : Wire.Stamp) : (namelessFile stamp).bytes.length = 52 := by
  simp [namelessFile, Wire.emitFileRecord, Wire.copyNameW]

/-- Two long command lines and a file: the second command line waits for the next batch, and the
newer file goes out before it. -/
theorem longCommandLine_overtaken :
    Increasing (run step Driver.init (overtakingRun (longCommandLine ⟨1, 0⟩) (longCommandLine ⟨2, 0⟩)
      (namelessFile ⟨3, 0⟩) Wire.maxRecordBytes)) ∧
    ¬ ((run step Driver.init (overtakingRun (longCommandLine ⟨1, 0⟩) (longCommandLine ⟨2, 0⟩)
      (namelessFile ⟨3, 0⟩) Wire.maxRecordBytes)).history.batches.flatMap Batch.records).Pairwise
        fun x y => x.2.sequence < y.2.sequence := by
  have hlen := longCommandLine_length
  have hfile := namelessFile_length
  refine ⟨overtakingRun_increasing _ rfl rfl rfl, fun hpair => ?_⟩
  have hseq := overtakingRun_sequences Wire.maxRecordBytes (a := longCommandLine ⟨1, 0⟩)
    (b := longCommandLine ⟨2, 0⟩) (c := namelessFile ⟨3, 0⟩) le_rfl (by rw [hlen, hlen]; decide)
    (by rw [hlen, hfile]; decide) (by rw [hlen]; decide) rfl rfl rfl
  have hsorted := List.pairwise_map.mpr hpair
  rw [hseq] at hsorted
  exact absurd hsorted (by decide)

end SecOutfall.Delivery
