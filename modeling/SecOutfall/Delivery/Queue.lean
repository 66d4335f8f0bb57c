import SecOutfall.Wire.Common

/-! The bounded record queue of `driver/secoutfall/Queue.h`.

The list is the `LIST_ENTRY` chain from head to tail. A queue carries its bound, so no operation
can build one that exceeds its capacity. Removing operations hand the removed item back, since
its memory is then the caller's. -/
namespace SecOutfall.Delivery
set_option autoImplicit false

/-- An `ItemFull<RecordHeader>`: one pool block with the wire record it holds. The `id` names the
allocation; two blocks with equal records are different blocks. -/
structure Item where
  id : ℕ
  sequence : UInt64
  bytes : List UInt8
  deriving DecidableEq, Repr

def Item.size (item : Item) : ℕ := item.bytes.length

@[ext] structure Queue (maxItems : ℕ) where
  items : List Item
  bounded : items.length ≤ maxItems
  max_pos : 0 < maxItems

namespace Queue

variable {maxItems : ℕ}

def empty (h : 0 < maxItems) : Queue maxItems := ⟨[], Nat.zero_le _, h⟩

/-- `Push`: a full queue gives up its head for the new entry. -/
def push (q : Queue maxItems) (entry : Item) : Queue maxItems × Option Item :=
  if h : q.items.length = maxItems then
    (⟨q.items.tail ++ [entry], by have := q.max_pos; simp; omega, q.max_pos⟩, q.items.head?)
  else
    (⟨q.items ++ [entry], by have := q.bounded; simp; omega, q.max_pos⟩, none)

/-- `TryPush`: a full queue refuses the new entry. -/
def tryPush (q : Queue maxItems) (entry : Item) : Option (Queue maxItems) :=
  if h : q.items.length = maxItems then none
  else some ⟨q.items ++ [entry], by have := q.bounded; simp; omega, q.max_pos⟩

def removeHead (q : Queue maxItems) : Queue maxItems :=
  ⟨q.items.tail, by have := q.bounded; simp; omega, q.max_pos⟩

def pop (q : Queue maxItems) : Option (Item × Queue maxItems) :=
  match q.items.head? with
  | none => none
  | some item => some (item, q.removeHead)

def popIfFits (q : Queue maxItems) (available : ℕ) : Option (Item × Queue maxItems) :=
  match q.items.head? with
  | none => none
  | some item => if available < item.size then none else some (item, q.removeHead)

def maxULongLong : UInt64 := 0xFFFFFFFFFFFFFFFF

/-- Sequence of the head item, or MAX for empty. -/
def headSeq (q : Queue maxItems) : UInt64 :=
  match q.items.head? with
  | none => maxULongLong
  | some item => item.sequence

def headSize (q : Queue maxItems) : ℕ :=
  match q.items.head? with
  | none => 0
  | some item => item.size

/-! ## What the operations do to the chain -/

theorem push_items (q : Queue maxItems) (entry : Item) :
    (q.push entry).2.toList ++ (q.push entry).1.items = q.items ++ [entry] := by
  unfold push
  split
  · rename_i hfull
    have hne : q.items ≠ [] := by
      intro hnil
      have hpos := q.max_pos
      rw [hnil, List.length_nil] at hfull
      omega
    obtain ⟨head, tail, hcons⟩ := List.exists_cons_of_ne_nil hne
    simp [hcons]
  · rfl

theorem tryPush_items {q q' : Queue maxItems} {entry : Item} (h : q.tryPush entry = some q') :
    q'.items = q.items ++ [entry] := by
  unfold tryPush at h
  split at h
  · cases h
  · cases h
    rfl

theorem tryPush_eq_none {q : Queue maxItems} {entry : Item} :
    q.tryPush entry = none ↔ q.items.length = maxItems := by
  unfold tryPush
  split <;> simp_all

theorem pop_items {q q' : Queue maxItems} {item : Item} (h : q.pop = some (item, q')) :
    q.items = item :: q'.items := by
  cases hq : q.items with
  | nil => simp [pop, hq] at h
  | cons head tail =>
    simp only [pop, hq, List.head?_cons, Option.some.injEq, Prod.mk.injEq] at h
    obtain ⟨rfl, rfl⟩ := h
    simp [removeHead, hq]

theorem popIfFits_items {q q' : Queue maxItems} {item : Item} {available : ℕ}
    (h : q.popIfFits available = some (item, q')) :
    q.items = item :: q'.items ∧ item.size ≤ available := by
  cases hq : q.items with
  | nil => simp [popIfFits, hq] at h
  | cons head tail =>
    simp only [popIfFits, hq, List.head?_cons] at h
    split at h
    · cases h
    · simp only [Option.some.injEq, Prod.mk.injEq] at h
      obtain ⟨rfl, rfl⟩ := h
      exact ⟨by simp [removeHead, hq], by omega⟩

end Queue

end SecOutfall.Delivery
