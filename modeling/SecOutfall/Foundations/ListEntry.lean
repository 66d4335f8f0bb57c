import Mathlib.Data.List.Chain
import Mathlib.Data.List.Nodup
import Mathlib.Logic.Function.Basic

/-! Circular doubly linked lists threaded through their entries: the `LIST_ENTRY` routines of the kernel headers.

A list is a head and the entries behind it, and what a routine does to the memory is read off the ring of
addresses it leaves. `FatalListEntryError`, which does not return, is `none`. -/
namespace SecOutfall.ListEntry
set_option autoImplicit false

variable {Addr : Type*}

/-! ## Rings -/

/-- The links of every `LIST_ENTRY` in memory. -/
structure Links (Addr : Type*) where
  flink : Addr → Addr
  blink : Addr → Addr

section
variable (m : Links Addr)

/-- Neighbours, each pointing at the other. -/
def Adjacent (entry next : Addr) : Prop := m.flink entry = next ∧ m.blink next = entry

/-- The entries of the list at `head`, in order, and nothing else on the way round. -/
structure Ring (head : Addr) (entries : List Addr) : Prop where
  chain : (head :: (entries ++ [head])).IsChain (Adjacent m)
  nodup : (head :: entries).Nodup

end

section
variable {m m' : Links Addr} {head : Addr} {entries : List Addr}

/-- Links outside the chain may change; so may the forward link of its end and the backward link of its start. -/
theorem chain_frame {l : List Addr} (hflink : ∀ entry ∈ l.dropLast, m'.flink entry = m.flink entry)
    (hblink : ∀ entry ∈ l.tail, m'.blink entry = m.blink entry) (h : l.IsChain (Adjacent m)) :
    l.IsChain (Adjacent m') := by
  induction l with
  | nil => exact .nil
  | cons entry l ih =>
    cases l with
    | nil => exact .singleton entry
    | cons next l =>
      rw [List.isChain_cons_cons] at h ⊢
      rw [List.dropLast_cons_cons, List.forall_mem_cons] at hflink
      rw [List.tail_cons, List.forall_mem_cons] at hblink
      refine ⟨⟨hflink.1.trans h.1.1, hblink.1.trans h.1.2⟩, ih hflink.2 (fun e he => hblink.2 e he) h.2⟩

/-- A list with its last element apart. -/
theorem exists_concat (head : Addr) (entries : List Addr) :
    ∃ front last, head :: entries = front ++ [last] :=
  ⟨(head :: entries).dropLast, (head :: entries).getLast (List.cons_ne_nil _ _),
    (List.dropLast_append_getLast (List.cons_ne_nil _ _)).symm⟩

theorem Ring.empty (h : m.flink head = head) (h' : m.blink head = head) : Ring m head [] where
  chain := List.isChain_cons_cons.mpr ⟨⟨h, h'⟩, .singleton head⟩
  nodup := List.nodup_singleton head

/-- What is off the ring has its links changed at will. -/
theorem Ring.frame (h : Ring m head entries) (hflink : ∀ entry ∈ head :: entries, m'.flink entry = m.flink entry)
    (hblink : ∀ entry ∈ head :: entries, m'.blink entry = m.blink entry) : Ring m' head entries where
  chain := by
    refine chain_frame (fun entry hentry => hflink entry ?_) (fun entry hentry => hblink entry ?_) h.chain
    · rwa [← List.cons_append, List.dropLast_concat] at hentry
    · rw [List.tail_cons, List.mem_append, List.mem_singleton] at hentry
      exact List.mem_cons.mpr hentry.symm
  nodup := h.nodup

/-- The entry in front of the head, and that the two point at each other. -/
theorem Ring.last (h : Ring m head entries) {front : List Addr} {last : Addr}
    (hlast : head :: entries = front ++ [last]) :
    (front ++ [last]).IsChain (Adjacent m) ∧ m.flink last = head ∧ m.blink head = last := by
  have hchain := h.chain
  rw [← List.cons_append, hlast, List.append_assoc, List.singleton_append, List.isChain_append_cons_cons] at hchain
  exact ⟨hchain.1, hchain.2.1⟩

end

/-! ## Routines -/

variable [DecidableEq Addr]

namespace Links

def setFlink (m : Links Addr) (entry next : Addr) : Links Addr :=
  { m with flink := Function.update m.flink entry next }

def setBlink (m : Links Addr) (entry prev : Addr) : Links Addr :=
  { m with blink := Function.update m.blink entry prev }

def initializeListHead (m : Links Addr) (head : Addr) : Links Addr := (m.setFlink head head).setBlink head head

def isListEmpty (m : Links Addr) (head : Addr) : Bool := m.flink head = head

def insertTailList (m : Links Addr) (head entry : Addr) : Option (Links Addr) :=
  let prev := m.blink head
  if m.flink prev ≠ head then none
  else some ((((m.setFlink entry head).setBlink entry prev).setFlink prev entry).setBlink head entry)

def removeEntryList (m : Links Addr) (entry : Addr) : Option (Links Addr) :=
  let next := m.flink entry
  let prev := m.blink entry
  if m.blink next ≠ entry ∨ m.flink prev ≠ entry then none else some ((m.setFlink prev next).setBlink next prev)

def removeHeadList (m : Links Addr) (head : Addr) : Option (Addr × Links Addr) :=
  let entry := m.flink head
  let next := m.flink entry
  if m.blink entry ≠ head ∨ m.blink next ≠ entry then none
  else some (entry, (m.setFlink head next).setBlink next head)

/-- The list to append has no head of its own: its first entry is given. -/
def appendTailList (m : Links Addr) (head first : Addr) : Links Addr :=
  let listEnd := m.blink head
  let m := m.setFlink listEnd first
  let m := m.setBlink head (m.blink first)
  let m := m.setFlink (m.blink first) head
  m.setBlink first listEnd

/-- `for (link = head->Flink; link != head; link = link->Flink)`, up to the first entry that `p` accepts. -/
def findFrom (m : Links Addr) (head : Addr) (p : Addr → Bool) : ℕ → Addr → Option Addr
  | 0, _ => none
  | fuel + 1, link => if link = head then none else if p link then some link else findFrom m head p fuel (m.flink link)

end Links

/-! ## What the routines do to a ring -/

section
variable {m : Links Addr} {head : Addr} {entries : List Addr}

theorem ring_initializeListHead (m : Links Addr) (head : Addr) : Ring (m.initializeListHead head) head [] :=
  Ring.empty (Function.update_self ..) (Function.update_self ..)

theorem Ring.isListEmpty (h : Ring m head entries) : m.isListEmpty head = entries.isEmpty := by
  cases entries with
  | nil => exact decide_eq_true (List.isChain_cons_cons.mp h.chain).1.1
  | cons first entries =>
    have hfirst : m.flink head = first := (List.isChain_cons_cons.mp h.chain).1.1
    have hne : first ≠ head := fun heq => (List.nodup_cons.mp h.nodup).1 (heq ▸ List.mem_cons_self)
    exact decide_eq_false (hfirst ▸ hne)

theorem Ring.insertTailList (h : Ring m head entries) {entry : Addr} (hnew : entry ∉ head :: entries) :
    ∃ m', m.insertTailList head entry = some m' ∧ Ring m' head (entries ++ [entry]) ∧
      ∀ other, other ∉ head :: (entries ++ [entry]) → m'.flink other = m.flink other ∧ m'.blink other = m.blink other := by
  obtain ⟨front, last, hlast⟩ := exists_concat head entries
  obtain ⟨hchain, hflink, hblink⟩ := h.last hlast
  have hnodup := h.nodup
  rw [hlast] at hnodup hnew
  have hfront : last ∉ front := fun hmem =>
    (List.nodup_append.mp hnodup).2.2 last hmem last (List.mem_singleton_self _) rfl
  have hne : entry ≠ last := fun heq => hnew (heq ▸ List.mem_append_right _ (List.mem_singleton_self _))
  have hhead : head ∈ front ++ [last] := hlast ▸ List.mem_cons_self
  have hne' : entry ≠ head := fun heq => hnew (heq ▸ hhead)
  refine ⟨_, by rw [Links.insertTailList, hblink, if_neg (not_not.mpr hflink)], ⟨?_, ?_⟩, ?_⟩
  · rw [← List.cons_append, ← List.cons_append, hlast, List.append_assoc, List.append_assoc, List.singleton_append,
      List.singleton_append, List.isChain_append_cons_cons, List.isChain_cons_cons]
    refine ⟨chain_frame ?_ ?_ hchain, ⟨?_, ?_⟩, ⟨?_, ?_⟩, .singleton head⟩
    · intro other hother
      rw [List.dropLast_concat] at hother
      have hlast' : other ≠ last := fun heq => hfront (heq ▸ hother)
      have hentry : other ≠ entry := fun heq => hnew (heq ▸ List.mem_append_left _ hother)
      simp [Links.setFlink, Links.setBlink, hlast', hentry]
    · -- the head is not in the tail: it is where the chain starts
      intro other hother
      have htail : other ∈ entries := by rwa [← hlast, List.tail_cons] at hother
      have hother' : other ≠ head := fun heq => (List.nodup_cons.mp h.nodup).1 (heq ▸ htail)
      have hentry : other ≠ entry := fun heq => hnew (heq ▸ hlast ▸ List.mem_cons_of_mem _ htail)
      simp [Links.setFlink, Links.setBlink, hother', hentry]
    · simp [Links.setFlink, Links.setBlink]
    · simp [Links.setFlink, Links.setBlink, hne']
    · simp [Links.setFlink, Links.setBlink, hne]
    · simp [Links.setFlink, Links.setBlink]
  · rw [← List.cons_append, hlast]
    exact List.nodup_append.mpr ⟨hnodup, List.nodup_singleton _, fun a ha b hb heq =>
      hnew (List.mem_singleton.mp hb ▸ heq ▸ ha)⟩
  · intro other hother
    rw [← List.cons_append, hlast] at hother
    simp only [List.mem_append, List.mem_singleton, not_or] at hother
    have hother' : other ≠ head := fun heq => by
      rw [← heq, List.mem_append, List.mem_singleton] at hhead
      exact hhead.elim hother.1.1 hother.1.2
    simp [Links.setFlink, Links.setBlink, hother.1.2, hother.2, hother']

/-- Joining the two neighbours of an entry takes it out. -/
theorem Ring.removeEntryList {before after : List Addr} {entry : Addr} (h : Ring m head (before ++ entry :: after)) :
    ∃ m', m.removeEntryList entry = some m' ∧ Ring m' head (before ++ after) ∧
      ∀ other, other ∉ head :: (before ++ after) → m'.flink other = m.flink other ∧ m'.blink other = m.blink other := by
  obtain ⟨front, prev, hprev⟩ := exists_concat head before
  obtain ⟨next, back, hnext⟩ := List.exists_cons_of_ne_nil (List.concat_ne_nil head after)
  have hchain := h.chain
  have hring : head :: (before ++ entry :: after ++ [head]) = front ++ prev :: entry :: next :: back := by
    rw [List.append_assoc, List.cons_append, ← List.cons_append, hprev, hnext, List.append_assoc]
    rfl
  rw [hring, List.isChain_append_cons_cons, List.isChain_cons_cons] at hchain
  obtain ⟨hfront, ⟨hprevEntry, hentryPrev⟩, ⟨hentryNext, hnextEntry⟩, hback⟩ := hchain
  have hnodup : (head :: (before ++ after)).Nodup :=
    h.nodup.sublist (((List.sublist_cons_self entry after).append_left before).cons_cons head)
  have hfrontNodup : (front ++ [prev]).Nodup :=
    hprev ▸ hnodup.sublist ((List.sublist_append_left before after).cons_cons head)
  have hprevFront : prev ∉ front := fun hmem =>
    (List.nodup_append.mp hfrontNodup).2.2 prev hmem prev (List.mem_singleton_self _) rfl
  -- the chain behind the entry ends with the head, which is met there and nowhere else
  have hbackNodup : (next :: back).Nodup := by
    rw [← hnext, List.nodup_append]
    refine ⟨(List.nodup_append.mp (List.nodup_cons.mp hnodup).2).2.1, List.nodup_singleton _, ?_⟩
    intro a ha b hb heq
    exact (List.nodup_cons.mp hnodup).1 (List.mem_append_right _ (List.mem_singleton.mp hb ▸ heq ▸ ha))
  have hprevMem : prev ∈ head :: before := hprev ▸ List.mem_append_right _ (List.mem_singleton_self _)
  have hnextMem : next = head ∨ next ∈ after := by
    have hmem : next ∈ after ++ [head] := hnext ▸ List.mem_cons_self
    rw [List.mem_append, List.mem_singleton] at hmem
    exact hmem.symm
  refine ⟨_, by rw [Links.removeEntryList, hentryNext, hentryPrev, if_neg (by simp [hnextEntry, hprevEntry])],
    ⟨?_, hnodup⟩, ?_⟩
  · rw [List.append_assoc, hnext, ← List.cons_append, hprev, List.append_assoc, List.singleton_append,
      List.isChain_append_cons_cons]
    refine ⟨chain_frame ?_ ?_ hfront, ⟨?_, ?_⟩, chain_frame ?_ ?_ hback⟩
    · intro other hother
      rw [List.dropLast_concat] at hother
      have hother' : other ≠ prev := fun heq => hprevFront (heq ▸ hother)
      simp [Links.setFlink, Links.setBlink, hother']
    · intro other hother
      rw [← hprev, List.tail_cons] at hother
      have hother' : other ≠ next := by
        rintro rfl
        obtain hhead | hafter := hnextMem
        · exact (List.nodup_cons.mp hnodup).1 (List.mem_append_left _ (hhead ▸ hother))
        · exact (List.nodup_append.mp (List.nodup_cons.mp hnodup).2).2.2 other hother other hafter rfl
      simp [Links.setFlink, Links.setBlink, hother']
    · simp [Links.setFlink, Links.setBlink]
    · simp [Links.setFlink, Links.setBlink]
    · intro other hother
      have hafter : other ∈ after := by rwa [← hnext, List.dropLast_concat] at hother
      have hother' : other ≠ prev := by
        rintro rfl
        rw [List.mem_cons] at hprevMem
        obtain hhead | hbefore := hprevMem
        · exact (List.nodup_cons.mp hnodup).1 (List.mem_append_right _ (hhead ▸ hafter))
        · exact (List.nodup_append.mp (List.nodup_cons.mp hnodup).2).2.2 other hbefore other hafter rfl
      simp [Links.setFlink, Links.setBlink, hother']
    · intro other hother
      have hother' : other ≠ next := fun heq => (List.nodup_cons.mp hbackNodup).1 (heq ▸ hother)
      simp [Links.setFlink, Links.setBlink, hother']
  · intro other hother
    simp only [List.mem_cons, List.mem_append, not_or] at hother
    have hprev' : other ≠ prev := by
      rintro rfl
      rw [List.mem_cons] at hprevMem
      exact hprevMem.elim hother.1 hother.2.1
    have hnext' : other ≠ next := by
      rintro rfl
      exact hnextMem.elim hother.1 hother.2.2
    simp [Links.setFlink, Links.setBlink, hprev', hnext']

/-- The first entry is the one behind the head. -/
theorem Ring.removeHeadList {first : Addr} (h : Ring m head (first :: entries)) :
    ∃ m', m.removeHeadList head = some (first, m') ∧ Ring m' head entries ∧
      ∀ other, other ∉ head :: entries → m'.flink other = m.flink other ∧ m'.blink other = m.blink other := by
  have hchain := h.chain
  rw [List.cons_append, List.isChain_cons_cons] at hchain
  have hall : Ring m head ([] ++ first :: entries) := h
  obtain ⟨m', hremove, hring, hframe⟩ := hall.removeEntryList
  refine ⟨m', ?_, hring, hframe⟩
  rw [Links.removeEntryList, hchain.1.2] at hremove
  rw [Links.removeHeadList, hchain.1.1]
  split at hremove
  · cases hremove
  · rename_i hsound
    rw [not_or, not_not, not_not] at hsound
    rw [if_neg (by simp [hsound.1, hchain.1.2])]
    cases hremove
    rfl

/-- The two ends of the appended chain are linked in: a list's own head, given as the first entry, becomes one. -/
theorem Ring.appendTailList {first : Addr} {rest : List Addr} (h : Ring m head entries) (hrest : Ring m first rest)
    (hapart : (head :: (entries ++ first :: rest)).Nodup) :
    Ring (m.appendTailList head first) head (entries ++ first :: rest) := by
  obtain ⟨front, p, hp⟩ := exists_concat head entries
  obtain ⟨back, q, hq⟩ := exists_concat first rest
  obtain ⟨hfront, hflinkP, hblinkHead⟩ := h.last hp
  obtain ⟨hback, hflinkQ, hblinkFirst⟩ := hrest.last hq
  have hdisjoint : ∀ a ∈ head :: entries, ∀ b ∈ first :: rest, a ≠ b := by
    rw [← List.cons_append] at hapart
    exact (List.nodup_append.mp hapart).2.2
  have hpMem : p ∈ head :: entries := hp ▸ List.mem_append_right _ (List.mem_singleton_self _)
  have hqMem : q ∈ first :: rest := hq ▸ List.mem_append_right _ (List.mem_singleton_self _)
  have hfirst : first ≠ head := fun heq => hdisjoint head List.mem_cons_self first List.mem_cons_self heq.symm
  have hpq : p ≠ q := hdisjoint p hpMem q hqMem
  have hpFront : ∀ other ∈ front, other ≠ p := fun other hother heq =>
    (List.nodup_append.mp (hp ▸ h.nodup)).2.2 other hother p (List.mem_singleton_self _) heq
  have hqBack : ∀ other ∈ back, other ≠ q := fun other hother heq =>
    (List.nodup_append.mp (hq ▸ hrest.nodup)).2.2 other hother q (List.mem_singleton_self _) heq
  have hflink (other : Addr) : (m.appendTailList head first).flink other =
      if other = q then head else if other = p then first else m.flink other := by
    simp [Links.appendTailList, Links.setFlink, Links.setBlink, hblinkHead, hblinkFirst, hfirst,
      Function.update_apply]
  have hblink (other : Addr) : (m.appendTailList head first).blink other =
      if other = first then p else if other = head then q else m.blink other := by
    simp [Links.appendTailList, Links.setFlink, Links.setBlink, hblinkHead, hblinkFirst, Function.update_apply]
  refine ⟨?_, hapart⟩
  rw [List.append_assoc, ← List.cons_append, hp, List.append_assoc, List.singleton_append, List.cons_append,
    List.isChain_append_cons_cons]
  refine ⟨chain_frame ?_ ?_ hfront, ⟨?_, ?_⟩, ?_⟩
  · intro other hother
    rw [List.dropLast_concat] at hother
    have hmem : other ∈ head :: entries := hp ▸ List.mem_append_left _ hother
    rw [hflink, if_neg (hdisjoint other hmem q hqMem), if_neg (hpFront other hother)]
  · intro other hother
    rw [← hp, List.tail_cons] at hother
    have hhead : other ≠ head := fun heq => (List.nodup_cons.mp h.nodup).1 (heq ▸ hother)
    rw [hblink, if_neg (hdisjoint other (List.mem_cons_of_mem _ hother) first List.mem_cons_self), if_neg hhead]
  · rw [hflink, if_neg hpq, if_pos rfl]
  · rw [hblink, if_pos rfl]
  · rw [← List.cons_append, hq, List.append_assoc, List.singleton_append, List.isChain_append_cons_cons]
    refine ⟨chain_frame ?_ ?_ hback, ⟨?_, ?_⟩, .singleton head⟩
    · intro other hother
      rw [List.dropLast_concat] at hother
      have hmem : other ∈ first :: rest := hq ▸ List.mem_append_left _ hother
      rw [hflink, if_neg (hqBack other hother), if_neg fun heq => hdisjoint p hpMem other hmem heq.symm]
    · intro other hother
      rw [← hq, List.tail_cons] at hother
      have hother' : other ≠ first := fun heq => (List.nodup_cons.mp hrest.nodup).1 (heq ▸ hother)
      have hhead : head ≠ other := hdisjoint head List.mem_cons_self other (List.mem_cons_of_mem _ hother)
      rw [hblink, if_neg hother', if_neg (Ne.symm hhead)]
    · rw [hflink, if_pos rfl]
    · rw [hblink, if_neg (Ne.symm hfirst), if_pos rfl]

/-- The search ends: it finds the first entry accepted, or comes round to the head. -/
theorem Ring.findFrom (h : Ring m head entries) (p : Addr → Bool) {fuel : ℕ} (hfuel : entries.length < fuel) :
    m.findFrom head p fuel (m.flink head) = entries.find? p := by
  have hgo : ∀ (rest : List Addr) (link : Addr) (fuel : ℕ), (link :: (rest ++ [head])).IsChain (Adjacent m) →
      head ∉ rest → rest.length < fuel → m.findFrom head p fuel (m.flink link) = rest.find? p := by
    intro rest
    induction rest with
    | nil =>
      intro link fuel hchain _ hfuel
      obtain ⟨fuel, rfl⟩ : ∃ n, fuel = n + 1 := ⟨fuel - 1, by simp at hfuel; omega⟩
      rw [(List.isChain_cons_cons.mp hchain).1.1, Links.findFrom, if_pos rfl]
      rfl
    | cons next rest ih =>
      intro link fuel hchain hhead hfuel
      obtain ⟨fuel, rfl⟩ : ∃ n, fuel = n + 1 := ⟨fuel - 1, by omega⟩
      rw [List.cons_append, List.isChain_cons_cons] at hchain
      rw [List.mem_cons, not_or] at hhead
      rw [hchain.1.1, Links.findFrom, if_neg (Ne.symm hhead.1), List.find?_cons]
      cases hp : p next with
      | true => rfl
      | false => exact ih next fuel hchain.2 hhead.2 (by rw [List.length_cons] at hfuel; omega)
  exact hgo entries head fuel h.chain (List.nodup_cons.mp h.nodup).1 hfuel

end

end SecOutfall.ListEntry
