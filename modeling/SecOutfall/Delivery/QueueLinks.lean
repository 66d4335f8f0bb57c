import SecOutfall.Delivery.Queue
import SecOutfall.Foundations.ListEntry
import SecOutfall.Foundations.Runs

/-! The queue of `driver/secoutfall/Queue.h` over its `LIST_ENTRY` chain and its counter, against the list that
stands for it elsewhere.

An operation that the list routines refuse, or that reads a block nobody holds, is `none`. -/
namespace SecOutfall.Delivery
open ListEntry Runs
set_option autoImplicit false

/-! ## Operations and answers -/

inductive QueueOp where
  | push (entry : Item)
  | tryPush (entry : Item)
  | pop
  | popIfFits (available : ℕ)
  | headSeq
  | headSize
  | freeAll
  deriving DecidableEq, Repr

inductive QueueAnswer where
  | pushed (evicted : Option Item)
  | tried (accepted : Bool)
  | popped (item : Option Item)
  | seq (sequence : UInt64)
  | size (size : ℕ)
  | freed (items : List Item)
  deriving DecidableEq, Repr

variable {maxItems : ℕ}

def Queue.perform (q : Queue maxItems) : QueueOp → Queue maxItems × QueueAnswer
  | .push entry => ((q.push entry).1, .pushed (q.push entry).2)
  | .tryPush entry =>
    match q.tryPush entry with
    | none => (q, .tried false)
    | some q => (q, .tried true)
  | .pop =>
    match q.pop with
    | none => (q, .popped none)
    | some (item, q) => (q, .popped (some item))
  | .popIfFits available =>
    match q.popIfFits available with
    | none => (q, .popped none)
    | some (item, q) => (q, .popped (some item))
  | .headSeq => (q, .seq q.headSeq)
  | .headSize => (q, .size q.headSize)
  | .freeAll => (.empty q.max_pos, .freed q.items)

/-- A new block is at an address that no linked block has. -/
def QueueOp.Fresh (head : ℕ) (q : Queue maxItems) : QueueOp → Prop
  | .push entry | .tryPush entry => entry.id ∉ head :: q.items.map Item.id
  | _ => True

instance QueueOp.decidableFresh (head : ℕ) (q : Queue maxItems) (op : QueueOp) : Decidable (op.Fresh head q) := by
  cases op <;> unfold QueueOp.Fresh <;> infer_instance

/-! ## The chain -/

/-- `blocks` are the pool blocks in use, by the address of their `Entry`. -/
structure LinkedQueue where
  links : Links ℕ
  blocks : ℕ → Option Item
  head : ℕ
  maxItems : ℕ
  size : ℕ

namespace LinkedQueue

/-- The constructor. -/
def new (links : Links ℕ) (blocks : ℕ → Option Item) (head maxItems : ℕ) : LinkedQueue :=
  ⟨links.initializeListHead head, blocks, head, maxItems, 0⟩

def allocRecord (s : LinkedQueue) (entry : Item) : LinkedQueue :=
  { s with blocks := Function.update s.blocks entry.id (some entry) }

def exFreePool (s : LinkedQueue) (address : ℕ) : LinkedQueue :=
  { s with blocks := Function.update s.blocks address none }

/-- The item of the head entry. -/
def first (s : LinkedQueue) : Option Item := s.blocks (s.links.flink s.head)

def insertTail (s : LinkedQueue) (address : ℕ) : Option LinkedQueue :=
  match s.links.insertTailList s.head address with
  | none => none
  | some links => some { s with links, size := s.size + 1 }

def removeHead (s : LinkedQueue) : Option (ℕ × LinkedQueue) :=
  match s.links.removeHeadList s.head with
  | none => none
  | some (address, links) => some (address, { s with links, size := s.size - 1 })

def push (s : LinkedQueue) (entry : Item) : Option (LinkedQueue × QueueAnswer) :=
  if s.size = s.maxItems then
    match s.removeHead with
    | none => none
    | some (address, s) =>
      match (s.exFreePool address).insertTail entry.id with
      | none => none
      | some s' => some (s', .pushed (s.blocks address))
  else
    match s.insertTail entry.id with
    | none => none
    | some s => some (s, .pushed none)

def tryPush (s : LinkedQueue) (entry : Item) : Option (LinkedQueue × QueueAnswer) :=
  if s.size = s.maxItems then some (s, .tried false)
  else
    match s.insertTail entry.id with
    | none => none
    | some s => some (s, .tried true)

def pop (s : LinkedQueue) : Option (LinkedQueue × QueueAnswer) :=
  if s.size = 0 then some (s, .popped none)
  else
    match s.removeHead with
    | none => none
    | some (address, s) => some (s, .popped (s.blocks address))

def popIfFits (s : LinkedQueue) (available : ℕ) : Option (LinkedQueue × QueueAnswer) :=
  if s.size = 0 then some (s, .popped none)
  else
    match s.first with
    | none => none
    | some item =>
      if available < item.size then some (s, .popped none)
      else
        match s.removeHead with
        | none => none
        | some (_, s) => some (s, .popped (some item))

def headSeq (s : LinkedQueue) : Option (LinkedQueue × QueueAnswer) :=
  if s.size = 0 then some (s, .seq Queue.maxULongLong)
  else s.first.map fun item => (s, .seq item.sequence)

def headSize (s : LinkedQueue) : Option (LinkedQueue × QueueAnswer) :=
  if s.size = 0 then some (s, .size 0) else s.first.map fun item => (s, .size item.size)

/-- `while (_size > 0) ExFreePool(Pop())`: every round lowers `_size`, so its value is rounds enough. -/
def freeAll : ℕ → LinkedQueue → Option (LinkedQueue × List Item)
  | 0, s => some (s, [])
  | rounds + 1, s =>
    match s.removeHead with
    | none => none
    | some (address, s) =>
      match freeAll rounds (s.exFreePool address) with
      | none => none
      | some (s', freed) => some (s', (s.blocks address).toList ++ freed)

def perform (s : LinkedQueue) : QueueOp → Option (LinkedQueue × QueueAnswer)
  | .push entry => (s.allocRecord entry).push entry
  | .tryPush entry => (s.allocRecord entry).tryPush entry
  | .pop => s.pop
  | .popIfFits available => s.popIfFits available
  | .headSeq => s.headSeq
  | .headSize => s.headSize
  | .freeAll => (freeAll s.size s).map fun (s, freed) => (s, .freed freed)

end LinkedQueue

/-! ## The list behind the chain -/

/-- The chain is a ring through the blocks of the items, and the counter is their number. -/
structure Represents (s : LinkedQueue) (q : Queue maxItems) : Prop where
  ring : Ring s.links s.head (q.items.map Item.id)
  blocks : ∀ item ∈ q.items, s.blocks item.id = some item
  size : s.size = q.items.length
  maxItems : s.maxItems = maxItems

namespace Represents

variable {s : LinkedQueue} {q : Queue maxItems}

theorem full (h : Represents s q) : s.size = s.maxItems ↔ q.items.length = maxItems := by rw [h.size, h.maxItems]

theorem allocRecord (h : Represents s q) {entry : Item} (hfresh : entry.id ∉ s.head :: q.items.map Item.id) :
    Represents (s.allocRecord entry) q := by
  refine ⟨h.ring, fun item hitem => ?_, h.size, h.maxItems⟩
  have hne : item.id ≠ entry.id := fun heq =>
    hfresh (heq ▸ List.mem_cons_of_mem _ (List.mem_map_of_mem hitem))
  exact (Function.update_of_ne hne _ _).trans (h.blocks item hitem)

theorem insertTail (h : Represents s q) {entry : Item} (hfresh : entry.id ∉ s.head :: q.items.map Item.id)
    (hblock : s.blocks entry.id = some entry) {q' : Queue maxItems} (hitems : q'.items = q.items ++ [entry]) :
    ∃ s', s.insertTail entry.id = some s' ∧ Represents s' q' ∧ s'.head = s.head := by
  obtain ⟨links, hinsert, hring, -⟩ := h.ring.insertTailList hfresh
  refine ⟨{ s with links, size := s.size + 1 }, by rw [LinkedQueue.insertTail, hinsert],
    ⟨?_, ?_, ?_, h.maxItems⟩, rfl⟩
  · rw [hitems, List.map_append]
    exact hring
  · rw [hitems, List.forall_mem_append, List.forall_mem_singleton]
    exact ⟨h.blocks, hblock⟩
  · rw [hitems, List.length_append, ← h.size]
    rfl

theorem removeHead (h : Represents s q) {item : Item} {q' : Queue maxItems} (hitems : q.items = item :: q'.items) :
    ∃ s', s.removeHead = some (item.id, s') ∧ Represents s' q' ∧ s'.head = s.head ∧ s'.blocks = s.blocks := by
  have hring := h.ring
  rw [hitems, List.map_cons] at hring
  obtain ⟨links, hremove, hring', -⟩ := hring.removeHeadList
  refine ⟨{ s with links, size := s.size - 1 }, by rw [LinkedQueue.removeHead, hremove],
    ⟨hring', fun other hother => ?_, ?_, h.maxItems⟩, rfl, rfl⟩
  · exact h.blocks other (hitems ▸ List.mem_cons_of_mem _ hother)
  · show s.size - 1 = _
    rw [h.size, hitems, List.length_cons, Nat.add_sub_cancel]

/-- The block of an item that was taken off the chain is nobody else's. -/
theorem exFreePool (h : Represents s q) {address : ℕ} (hoff : address ∉ q.items.map Item.id) :
    Represents (s.exFreePool address) q := by
  refine ⟨h.ring, fun item hitem => ?_, h.size, h.maxItems⟩
  have hne : item.id ≠ address := fun heq => hoff (heq ▸ List.mem_map_of_mem hitem)
  exact (Function.update_of_ne hne _ _).trans (h.blocks item hitem)

theorem first (h : Represents s q) {item : Item} {rest : List Item} (hitems : q.items = item :: rest) :
    s.first = some item := by
  have hring := h.ring.chain
  rw [hitems, List.map_cons, List.cons_append, List.isChain_cons_cons] at hring
  rw [LinkedQueue.first, hring.1.1]
  exact h.blocks item (hitems ▸ List.mem_cons_self)

/-- The ids of the items are distinct. -/
theorem distinct (h : Represents s q) {item : Item} {rest : List Item} (hitems : q.items = item :: rest) :
    item.id ∉ rest.map Item.id := by
  have hnodup := (List.nodup_cons.mp h.ring.nodup).2
  rw [hitems, List.map_cons] at hnodup
  exact (List.nodup_cons.mp hnodup).1

theorem size_pos (h : Represents s q) {item : Item} {rest : List Item} (hitems : q.items = item :: rest) :
    s.size ≠ 0 := by
  rw [h.size, hitems, List.length_cons]
  omega

/-! ## Operation by operation -/

theorem push (h : Represents s q) {entry : Item} (hfresh : entry.id ∉ s.head :: q.items.map Item.id)
    (hblock : s.blocks entry.id = some entry) :
    ∃ s', s.push entry = some (s', .pushed (q.push entry).2) ∧ Represents s' (q.push entry).1 ∧ s'.head = s.head := by
  by_cases hfull : q.items.length = maxItems
  · have hpos := q.max_pos
    obtain ⟨item, rest, hitems⟩ := List.exists_cons_of_length_pos (hfull.symm ▸ hpos)
    have hrest : q.removeHead.items = rest := congrArg List.tail hitems
    have hpopped : q.items = item :: q.removeHead.items := by rw [hrest, hitems]
    obtain ⟨s', hremove, hrep, hhead, hblocks⟩ := h.removeHead hpopped
    have hne : entry.id ≠ item.id := fun heq =>
      hfresh (heq ▸ hitems ▸ List.mem_cons_of_mem _ List.mem_cons_self)
    have hfresh' : entry.id ∉ s'.head :: q.removeHead.items.map Item.id := by
      rw [hhead, hrest]
      intro hmem
      rw [hitems, List.map_cons] at hfresh
      exact hfresh (((List.sublist_cons_self item.id _).cons_cons s.head).subset hmem)
    have hdistinct := h.distinct hitems
    rw [← hrest] at hdistinct
    have hblock' : (s'.exFreePool item.id).blocks entry.id = some entry := by
      show Function.update s'.blocks item.id none entry.id = _
      rw [Function.update_of_ne hne, hblocks, hblock]
    have hpushed : (q.push entry).1.items = q.removeHead.items ++ [entry] := by
      rw [Queue.push, dif_pos hfull]
      rfl
    obtain ⟨s'', hinsert, hrep', hhead'⟩ := (hrep.exFreePool hdistinct).insertTail hfresh' hblock' hpushed
    have hevicted : (q.push entry).2 = some item := by
      rw [Queue.push, dif_pos hfull]
      simp [hitems]
    refine ⟨s'', ?_, hrep', hhead'.trans hhead⟩
    rw [LinkedQueue.push, if_pos (h.full.mpr hfull), hremove]
    dsimp only
    rw [hinsert, hevicted, hblocks, h.blocks item (hitems ▸ List.mem_cons_self)]
  · have hpushed : (q.push entry).1.items = q.items ++ [entry] := by rw [Queue.push, dif_neg hfull]
    obtain ⟨s', hinsert, hrep, hhead⟩ := h.insertTail hfresh hblock hpushed
    refine ⟨s', ?_, hrep, hhead⟩
    rw [LinkedQueue.push, if_neg (mt h.full.mp hfull), hinsert, Queue.push, dif_neg hfull]

theorem tryPush (h : Represents s q) {entry : Item} (hfresh : entry.id ∉ s.head :: q.items.map Item.id)
    (hblock : s.blocks entry.id = some entry) :
    ∃ s', s.tryPush entry = some (s', (q.perform (.tryPush entry)).2) ∧
      Represents s' (q.perform (.tryPush entry)).1 ∧ s'.head = s.head := by
  rw [Queue.perform]
  cases htry : q.tryPush entry with
  | none =>
    have hfull := Queue.tryPush_eq_none.mp htry
    exact ⟨s, by rw [LinkedQueue.tryPush, if_pos (h.full.mpr hfull)], h, rfl⟩
  | some q' =>
    have hroom : ¬q.items.length = maxItems := fun hfull => by simp [Queue.tryPush_eq_none.mpr hfull] at htry
    obtain ⟨s', hinsert, hrep, hhead⟩ := h.insertTail hfresh hblock (Queue.tryPush_items htry)
    exact ⟨s', by rw [LinkedQueue.tryPush, if_neg (mt h.full.mp hroom), hinsert], hrep, hhead⟩

theorem pop (h : Represents s q) :
    ∃ s', s.pop = some (s', (q.perform .pop).2) ∧ Represents s' (q.perform .pop).1 ∧ s'.head = s.head := by
  rw [Queue.perform, Queue.pop]
  cases hitems : q.items with
  | nil => exact ⟨s, by rw [LinkedQueue.pop, if_pos (h.size.trans (by rw [hitems]; rfl))]; rfl, h, rfl⟩
  | cons item rest =>
    have hrest : q.items = item :: q.removeHead.items := hitems.trans (congrArg _ (congrArg List.tail hitems).symm)
    obtain ⟨s', hremove, hrep, hhead, hblocks⟩ := h.removeHead hrest
    refine ⟨s', ?_, hrep, hhead⟩
    rw [LinkedQueue.pop, if_neg (h.size_pos hitems), hremove]
    dsimp only
    rw [hblocks, h.blocks item (hitems ▸ List.mem_cons_self)]
    rfl

theorem popIfFits (h : Represents s q) (available : ℕ) :
    ∃ s', s.popIfFits available = some (s', (q.perform (.popIfFits available)).2) ∧
      Represents s' (q.perform (.popIfFits available)).1 ∧ s'.head = s.head := by
  rw [Queue.perform, Queue.popIfFits]
  cases hitems : q.items with
  | nil => exact ⟨s, by rw [LinkedQueue.popIfFits, if_pos (h.size.trans (by rw [hitems]; rfl))]; rfl, h, rfl⟩
  | cons item rest =>
    rw [LinkedQueue.popIfFits, if_neg (h.size_pos hitems), h.first hitems, List.head?_cons]
    dsimp only
    by_cases hover : available < item.size
    · rw [if_pos hover, if_pos hover]
      exact ⟨s, rfl, h, rfl⟩
    · have hrest : q.items = item :: q.removeHead.items := hitems.trans (congrArg _ (congrArg List.tail hitems).symm)
      obtain ⟨s', hremove, hrep, hhead, -⟩ := h.removeHead hrest
      rw [if_neg hover, if_neg hover, hremove]
      exact ⟨s', rfl, hrep, hhead⟩

theorem headSeq (h : Represents s q) : s.headSeq = some (s, .seq q.headSeq) := by
  rw [Queue.headSeq]
  cases hitems : q.items with
  | nil => rw [LinkedQueue.headSeq, if_pos (h.size.trans (by rw [hitems]; rfl))]; rfl
  | cons item rest => rw [LinkedQueue.headSeq, if_neg (h.size_pos hitems), h.first hitems]; rfl

theorem headSize (h : Represents s q) : s.headSize = some (s, .size q.headSize) := by
  rw [Queue.headSize]
  cases hitems : q.items with
  | nil => rw [LinkedQueue.headSize, if_pos (h.size.trans (by rw [hitems]; rfl))]; rfl
  | cons item rest => rw [LinkedQueue.headSize, if_neg (h.size_pos hitems), h.first hitems]; rfl

/-- Every block is freed once, in order. -/
theorem freeAll (h : Represents s q) :
    ∃ s', LinkedQueue.freeAll s.size s = some (s', q.items) ∧ Represents s' (Queue.empty q.max_pos) ∧
      s'.head = s.head := by
  rw [h.size]
  induction hitems : q.items generalizing s q with
  | nil =>
    refine ⟨s, rfl, ⟨?_, fun item hitem => absurd hitem List.not_mem_nil, ?_, h.maxItems⟩, rfl⟩
    · have hring := h.ring
      rw [hitems] at hring
      exact hring
    · rw [h.size, hitems]
      rfl
  | cons item rest ih =>
    have hrest : q.removeHead.items = rest := congrArg List.tail hitems
    have hpopped : q.items = item :: q.removeHead.items := by rw [hrest, hitems]
    obtain ⟨s', hremove, hrep, hhead, hblocks⟩ := h.removeHead hpopped
    have hdistinct := h.distinct hitems
    rw [← hrest] at hdistinct
    obtain ⟨s'', hfree, hrep', hhead'⟩ := ih (hrep.exFreePool hdistinct) hrest
    refine ⟨s'', ?_, hrep', hhead'.trans hhead⟩
    rw [List.length_cons, LinkedQueue.freeAll, hremove]
    dsimp only
    rw [hfree, hblocks, h.blocks item (hitems ▸ List.mem_cons_self)]
    rfl

theorem perform (h : Represents s q) {op : QueueOp} (hfresh : op.Fresh s.head q) :
    ∃ s', s.perform op = some (s', (q.perform op).2) ∧ Represents s' (q.perform op).1 ∧ s'.head = s.head := by
  cases op with
  | push entry => exact (h.allocRecord hfresh).push hfresh (Function.update_self ..)
  | tryPush entry => exact (h.allocRecord hfresh).tryPush hfresh (Function.update_self ..)
  | pop => exact h.pop
  | popIfFits available => exact h.popIfFits available
  | headSeq => exact ⟨s, h.headSeq, h, rfl⟩
  | headSize => exact ⟨s, h.headSize, h, rfl⟩
  | freeAll =>
    obtain ⟨s', hfree, hrep, hhead⟩ := h.freeAll
    exact ⟨s', by rw [LinkedQueue.perform, hfree]; rfl, hrep, hhead⟩

end Represents

/-! ## Runs -/

/-- The list with the answers given so far. -/
def queueStep (t : Queue maxItems × List QueueAnswer) (op : QueueOp) : Queue maxItems × List QueueAnswer :=
  ((t.1.perform op).1, t.2 ++ [(t.1.perform op).2])

def linkedStep (t : LinkedQueue × List QueueAnswer) (op : QueueOp) : Option (LinkedQueue × List QueueAnswer) :=
  (t.1.perform op).map fun (s, answer) => (s, t.2 ++ [answer])

theorem Represents.run {s : LinkedQueue} {q : Queue maxItems} (h : Represents s q) (answers : List QueueAnswer)
    {ops : List QueueOp} (hfresh : Along queueStep (fun t op => op.Fresh s.head t.1) (q, answers) ops) :
    ∃ s', ops.foldlM linkedStep (s, answers) = some (s', (run queueStep (q, answers) ops).2) ∧
      Represents s' (run queueStep (q, answers) ops).1 := by
  induction ops generalizing s q answers with
  | nil => exact ⟨s, rfl, h⟩
  | cons op ops ih =>
    obtain ⟨s', hperform, hrep, hhead⟩ := h.perform hfresh.1
    rw [← hhead] at hfresh
    obtain ⟨s'', hrun, hrep'⟩ := ih hrep (answers ++ [(q.perform op).2]) hfresh.2
    refine ⟨s'', ?_, hrep'⟩
    rw [List.foldlM_cons, linkedStep, hperform]
    exact hrun

/-- As long as no block in the queue is handed out a second time, the chain gives the answers of the list, never
trips over its own links and never reads a freed block; what is linked is the list's items in order, and the
counter is their number. -/
theorem linked_queue_refines (links : Links ℕ) (blocks : ℕ → Option Item) (head : ℕ) (hmax : 0 < maxItems)
    (ops : List QueueOp)
    (hfresh : Along queueStep (fun t op => op.Fresh head t.1) (Queue.empty hmax, []) ops) :
    ∃ s, ops.foldlM linkedStep (LinkedQueue.new links blocks head maxItems, []) =
        some (s, (run queueStep (Queue.empty hmax, []) ops).2) ∧
      Represents s (run queueStep (Queue.empty hmax, []) ops).1 :=
  Represents.run (s := LinkedQueue.new links blocks head maxItems) (q := Queue.empty hmax)
    ⟨ring_initializeListHead links head, fun _ hitem => absurd hitem List.not_mem_nil, rfl, rfl⟩ [] hfresh

/-- Two blocks, and a third that pushes the first out. -/
def threePushes : List QueueOp := [.push ⟨1, 7, []⟩, .push ⟨2, 8, []⟩, .push ⟨3, 9, []⟩, .pop, .freeAll]

theorem linked_queue_evicts :
    ∃ s, threePushes.foldlM linkedStep (LinkedQueue.new ⟨id, id⟩ (fun _ => none) 0 2, []) =
      some (s, [.pushed none, .pushed none, .pushed (some ⟨1, 7, []⟩), .popped (some ⟨2, 8, []⟩),
        .freed [⟨3, 9, []⟩]]) :=
  (@linked_queue_refines 2 ⟨id, id⟩ (fun _ => none) 0 (by decide) threePushes (by decide)).imp fun _ h => h.1

end SecOutfall.Delivery
