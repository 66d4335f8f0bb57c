import SecOutfall.Foundations.ListEntry

/-! A keyed list of pool blocks over a `LIST_ENTRY` chain: search from the head, insertion at the tail, removal of the
entry found, and teardown.

What is linked is a list of blocks with their addresses, and each operation is one on that list. -/
namespace SecOutfall.PoolList
open ListEntry
set_option autoImplicit false

variable {ε κ : Type*} [DecidableEq κ]

/-! ## Operations -/

/-- `blocks` are the blocks in use, by the address of their link. -/
structure LinkedTable (ε : Type*) where
  links : Links ℕ
  blocks : ℕ → Option ε
  head : ℕ
  count : ℕ

namespace LinkedTable

def new (links : Links ℕ) (blocks : ℕ → Option ε) (head : ℕ) : LinkedTable ε :=
  ⟨links.initializeListHead head, blocks, head, 0⟩

def alloc (s : LinkedTable ε) (address : ℕ) (entry : ε) : LinkedTable ε :=
  { s with blocks := Function.update s.blocks address (some entry) }

def free (s : LinkedTable ε) (address : ℕ) : LinkedTable ε :=
  { s with blocks := Function.update s.blocks address none }

def insertTail (s : LinkedTable ε) (address : ℕ) : Option (LinkedTable ε) :=
  match s.links.insertTailList s.head address with
  | none => none
  | some links => some { s with links, count := s.count + 1 }

/-- While `IsListEmpty` says no: remove the head entry and free its block. -/
def clear : ℕ → LinkedTable ε → Option (LinkedTable ε × List ℕ)
  | 0, s => some (s, [])
  | rounds + 1, s =>
    if s.links.isListEmpty s.head then some (s, [])
    else
      match s.links.removeHeadList s.head with
      | none => none
      | some (address, links) =>
        match clear rounds (free { s with links, count := s.count - 1 } address) with
        | none => none
        | some (s, freed) => some (s, address :: freed)

section
variable (key : ε → κ)

def hasKey (s : LinkedTable ε) (k : κ) (address : ℕ) : Bool :=
  match s.blocks address with
  | none => false
  | some entry => key entry = k

/-- The walk meets every entry and the head: that many steps, and one. -/
def find (s : LinkedTable ε) (k : κ) : Option ℕ :=
  s.links.findFrom s.head (s.hasKey key k) (s.count + 1) (s.links.flink s.head)

def unlink (s : LinkedTable ε) (k : κ) : Option (Option ℕ × LinkedTable ε) :=
  match s.find key k with
  | none => some (none, s)
  | some address =>
    match s.links.removeEntryList address with
    | none => none
    | some links => some (some address, { s with links, count := s.count - 1 })

/-- Assignments through the pointer that the search returned. -/
def update (s : LinkedTable ε) (k : κ) (f : ε → ε) : LinkedTable ε :=
  match s.find key k with
  | none => s
  | some address => { s with blocks := Function.update s.blocks address ((s.blocks address).map f) }

end

end LinkedTable

/-! ## The list of blocks -/

section
variable (key : ε → κ)

/-- `f` on the first entry with the key. -/
def updateFirst (k : κ) (f : ε → ε) : List (ℕ × ε) → List (ℕ × ε)
  | [] => []
  | placed :: rest => if key placed.2 = k then (placed.1, f placed.2) :: rest else placed :: updateFirst k f rest

def findFirst (k : κ) (placed : List (ℕ × ε)) : Option (ℕ × ε) := placed.find? fun x => key x.2 = k

end

structure Represents (s : LinkedTable ε) (placed : List (ℕ × ε)) : Prop where
  ring : Ring s.links s.head (placed.map (·.1))
  blocks : ∀ x ∈ placed, s.blocks x.1 = some x.2
  count : s.count = placed.length

theorem represents_new (links : Links ℕ) (blocks : ℕ → Option ε) (head : ℕ) :
    Represents (LinkedTable.new links blocks head) [] :=
  ⟨ring_initializeListHead links head, fun _ hx => absurd hx List.not_mem_nil, rfl⟩

namespace Represents

variable {s : LinkedTable ε} {placed : List (ℕ × ε)}

theorem alloc (h : Represents s placed) {address : ℕ} (hfresh : address ∉ placed.map (·.1)) (entry : ε) :
    Represents (s.alloc address entry) placed := by
  refine ⟨h.ring, fun x hx => ?_, h.count⟩
  have hne : x.1 ≠ address := fun heq => hfresh (heq ▸ List.mem_map_of_mem hx)
  exact (Function.update_of_ne hne _ _).trans (h.blocks x hx)

theorem free (h : Represents s placed) {address : ℕ} (hoff : address ∉ placed.map (·.1)) :
    Represents (s.free address) placed := by
  refine ⟨h.ring, fun x hx => ?_, h.count⟩
  have hne : x.1 ≠ address := fun heq => hoff (heq ▸ List.mem_map_of_mem hx)
  exact (Function.update_of_ne hne _ _).trans (h.blocks x hx)

theorem insertTail (h : Represents s placed) {address : ℕ} {entry : ε}
    (hfresh : address ∉ s.head :: placed.map (·.1)) (hblock : s.blocks address = some entry) :
    ∃ s', s.insertTail address = some s' ∧ Represents s' (placed ++ [(address, entry)]) ∧ s'.head = s.head ∧
      s'.blocks = s.blocks := by
  obtain ⟨links, hinsert, hring, -⟩ := h.ring.insertTailList hfresh
  refine ⟨{ s with links, count := s.count + 1 }, by rw [LinkedTable.insertTail, hinsert], ⟨?_, ?_, ?_⟩, rfl, rfl⟩
  · rw [List.map_append]
    exact hring
  · rw [List.forall_mem_append, List.forall_mem_singleton]
    exact ⟨h.blocks, hblock⟩
  · rw [List.length_append, ← h.count]
    rfl

/-- Teardown frees each block once, in order, and leaves the list empty. -/
theorem clear (h : Represents s placed) {rounds : ℕ} (hrounds : placed.length ≤ rounds) :
    ∃ s', LinkedTable.clear rounds s = some (s', placed.map (·.1)) ∧ Represents s' [] ∧ s'.head = s.head ∧
      s'.blocks = fun address => if address ∈ placed.map (·.1) then none else s.blocks address := by
  induction placed generalizing s rounds with
  | nil =>
    refine ⟨s, ?_, h, rfl, by simp⟩
    cases rounds with
    | zero => rfl
    | succ rounds => rw [LinkedTable.clear, h.ring.isListEmpty, List.map_nil, List.isEmpty_nil, if_pos rfl]
  | cons x rest ih =>
    obtain ⟨rounds, rfl⟩ : ∃ n, rounds = n + 1 := ⟨rounds - 1, by rw [List.length_cons] at hrounds; omega⟩
    have hring := h.ring
    rw [List.map_cons] at hring
    obtain ⟨links, hremove, hring', -⟩ := hring.removeHeadList
    have hoff : x.1 ∉ rest.map (·.1) := (List.nodup_cons.mp (List.nodup_cons.mp hring.nodup).2).1
    have hrest : Represents { s with links, count := s.count - 1 } rest :=
      ⟨hring', fun y hy => h.blocks y (List.mem_cons_of_mem _ hy), by
        show s.count - 1 = _
        rw [h.count, List.length_cons, Nat.add_sub_cancel]⟩
    have hrounds' : rest.length ≤ rounds := Nat.le_of_succ_le_succ hrounds
    obtain ⟨s', hclear, hrep, hhead, hblocks⟩ := ih (hrest.free hoff) hrounds'
    refine ⟨s', ?_, hrep, hhead, ?_⟩
    · rw [LinkedTable.clear, hring.isListEmpty, List.isEmpty_cons, if_neg Bool.false_ne_true, hremove]
      dsimp only
      rw [hclear, List.map_cons]
    · rw [hblocks]
      funext address
      by_cases hx : address = x.1
      · subst hx
        rw [if_neg hoff, if_pos (List.mem_map_of_mem List.mem_cons_self)]
        exact Function.update_self ..
      · have hmem : address ∈ (x :: rest).map (·.1) ↔ address ∈ rest.map (·.1) := by simp [hx]
        by_cases hlinked : address ∈ rest.map (·.1)
        · rw [if_pos hlinked, if_pos (hmem.mpr hlinked)]
        · rw [if_neg hlinked, if_neg (mt hmem.mp hlinked)]
          exact Function.update_of_ne hx _ _

variable {key : ε → κ}

theorem find (h : Represents s placed) (k : κ) : s.find key k = (findFirst key k placed).map (·.1) := by
  rw [LinkedTable.find, h.ring.findFrom _ (by rw [List.length_map, h.count]; omega), findFirst, List.find?_map]
  congr 1
  have hblocks := h.blocks
  clear h
  induction placed with
  | nil => rfl
  | cons x rest ih =>
    rw [List.forall_mem_cons] at hblocks
    rw [List.find?_cons, List.find?_cons, ih hblocks.2]
    have hkey : (s.hasKey key k ∘ fun x : ℕ × ε => x.1) x = decide (key x.2 = k) := by
      simp [LinkedTable.hasKey, hblocks.1]
    rw [hkey]

theorem update (h : Represents s placed) (k : κ) (f : ε → ε) :
    Represents (s.update key k f) (updateFirst key k f placed) ∧ (s.update key k f).head = s.head := by
  rw [LinkedTable.update, h.find]
  have hgo : ∀ (l : List (ℕ × ε)), (l.map (·.1)).Nodup → (∀ x ∈ l, s.blocks x.1 = some x.2) →
      (findFirst key k l = none → updateFirst key k f l = l) ∧
      ((updateFirst key k f l).map (·.1) = l.map (·.1)) ∧
      ∀ x ∈ findFirst key k l, ∀ y ∈ updateFirst key k f l,
        Function.update s.blocks x.1 ((s.blocks x.1).map f) y.1 = some y.2 := by
    intro l
    induction l with
    | nil => exact fun _ _ => ⟨fun _ => rfl, rfl, fun x hx => absurd hx (by simp [findFirst])⟩
    | cons x rest ih =>
      intro hnodup hblocks
      rw [List.map_cons, List.nodup_cons] at hnodup
      rw [List.forall_mem_cons] at hblocks
      obtain ⟨hnone, haddresses, hwritten⟩ := ih hnodup.2 hblocks.2
      by_cases hkey : key x.2 = k
      · have hfind : findFirst key k (x :: rest) = some x := by rw [findFirst, List.find?_cons, decide_eq_true hkey]
        rw [updateFirst, if_pos hkey, hfind]
        refine ⟨fun habsurd => absurd habsurd (by simp), rfl, ?_⟩
        intro found hfound y hy
        obtain rfl : x = found := by simpa using hfound
        rw [List.mem_cons] at hy
        obtain rfl | hy := hy
        · rw [Function.update_self, hblocks.1]
          rfl
        · have hne : y.1 ≠ x.1 := fun heq => hnodup.1 (heq ▸ List.mem_map_of_mem hy)
          exact (Function.update_of_ne hne _ _).trans (hblocks.2 y hy)
      · have hfind : findFirst key k (x :: rest) = findFirst key k rest := by
          rw [findFirst, List.find?_cons, decide_eq_false hkey]
          rfl
        rw [updateFirst, if_neg hkey, hfind]
        refine ⟨fun habsent => by rw [hnone habsent], by rw [List.map_cons, haddresses, List.map_cons], ?_⟩
        intro found hfound y hy
        rw [List.mem_cons] at hy
        obtain rfl | hy := hy
        · have hmem : found.1 ∈ rest.map (·.1) := List.mem_map_of_mem (List.mem_of_find?_eq_some hfound)
          have hne : y.1 ≠ found.1 := fun heq => hnodup.1 (heq ▸ hmem)
          exact (Function.update_of_ne hne _ _).trans hblocks.1
        · exact hwritten found hfound y hy
  obtain ⟨hnone, haddresses, hwritten⟩ := hgo placed (List.nodup_cons.mp h.ring.nodup).2 h.blocks
  have hlength : (updateFirst key k f placed).length = placed.length := by
    rw [← List.length_map (f := (·.1)), haddresses, List.length_map]
  cases hfind : findFirst key k placed with
  | none =>
    rw [hnone hfind]
    exact ⟨h, rfl⟩
  | some x =>
    refine ⟨⟨?_, hwritten x hfind, ?_⟩, rfl⟩
    · rw [haddresses]
      exact h.ring
    · rw [hlength]
      exact h.count

theorem unlink (h : Represents s placed) (k : κ) :
    ∃ s', s.unlink key k = some ((findFirst key k placed).map (·.1), s') ∧
      Represents s' (placed.eraseP fun x => key x.2 = k) ∧ s'.head = s.head ∧ s'.blocks = s.blocks := by
  rw [LinkedTable.unlink, h.find]
  cases hfind : findFirst key k placed with
  | none =>
    have herase : (placed.eraseP fun x => key x.2 = k) = placed :=
      List.eraseP_of_forall_not fun x hx => List.find?_eq_none.mp hfind x hx
    exact ⟨s, rfl, herase.symm ▸ h, rfl, rfl⟩
  | some x =>
    obtain ⟨hkey, before, after, hplaced, hbefore⟩ := List.find?_eq_some_iff_append.mp hfind
    have herase : (placed.eraseP fun x => key x.2 = k) = before ++ after := by
      rw [hplaced, List.eraseP_append_right _ (by simpa using hbefore), List.eraseP_cons, hkey, cond_true]
    have hring := h.ring
    rw [hplaced, List.map_append, List.map_cons] at hring
    obtain ⟨links, hremove, hring', -⟩ := hring.removeEntryList
    refine ⟨{ s with links, count := s.count - 1 }, ?_, ⟨?_, fun y hy => ?_, ?_⟩, rfl, rfl⟩
    · dsimp only [Option.map_some]
      rw [hremove]
    · rw [herase, List.map_append]
      exact hring'
    · exact h.blocks y (List.eraseP_sublist.subset hy)
    · show s.count - 1 = _
      rw [h.count, herase, hplaced, List.length_append, List.length_append, List.length_cons]
      omega

end Represents

end SecOutfall.PoolList
