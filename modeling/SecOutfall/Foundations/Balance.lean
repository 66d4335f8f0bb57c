import Mathlib.Algebra.BigOperators.Group.Finset.Piecewise
import Mathlib.Data.Fintype.Basic
import Mathlib.Data.List.Infix

/-! Presses and releases.

`net` counts how often a key is down in the end. A stream is settled if it never releases a key more often than
it pressed it, and holds none in the end: what is left of it at any cut is then what is held there. Where streams
interleave, the counts add up. -/
namespace SecOutfall.Balance
open Finset
set_option autoImplicit false

theorem prefix_append_cases {β : Type*} {front edges more : List β} (h : front <+: edges ++ more) :
    front <+: edges ∨ ∃ behind, behind <+: more ∧ front = edges ++ behind := by
  obtain hshort | ⟨behind, rfl⟩ := List.prefix_or_prefix_of_prefix h (List.prefix_append edges more)
  · exact .inl hshort
  · exact .inr ⟨behind, (List.prefix_append_right_inj edges).mp h, rfl⟩

variable {α : Type*}

structure Edge (α : Type*) where
  key : α
  up : Bool
  deriving DecidableEq, Repr

/-- One stream out of several. -/
def streamOf {ι : Type*} [DecidableEq ι] (i : ι) (log : List (ι × Edge α)) : List (Edge α) :=
  log.filterMap fun entry => if entry.1 = i then some entry.2 else none

theorem streamOf_append {ι : Type*} [DecidableEq ι] (i : ι) (log more : List (ι × Edge α)) :
    streamOf i (log ++ more) = streamOf i log ++ streamOf i more :=
  List.filterMap_append

theorem streamOf_tagged {ι : Type*} [DecidableEq ι] (i j : ι) (edges : List (Edge α)) :
    streamOf i (edges.map (j, ·)) = if j = i then edges else [] := by
  unfold streamOf
  rw [List.filterMap_map]
  split
  · rename_i hsame
    simp [hsame]
  · rename_i hother
    simp [hother]

def downs (keys : List α) : List (Edge α) := keys.map (⟨·, false⟩)

def ups (keys : List α) : List (Edge α) := keys.map (⟨·, true⟩)

variable [DecidableEq α]

def Edge.delta (key : α) (e : Edge α) : ℤ := if e.key = key then (if e.up then -1 else 1) else 0

def net (key : α) : List (Edge α) → ℤ
  | [] => 0
  | e :: edges => e.delta key + net key edges

@[simp] theorem net_nil (key : α) : net key [] = 0 := rfl

@[simp] theorem net_cons (key : α) (e : Edge α) (edges : List (Edge α)) :
    net key (e :: edges) = e.delta key + net key edges := rfl

@[simp] theorem net_append (key : α) (edges more : List (Edge α)) :
    net key (edges ++ more) = net key edges + net key more := by
  induction edges with
  | nil => rw [List.nil_append, net_nil, zero_add]
  | cons e edges ih => rw [List.cons_append, net_cons, net_cons, ih, add_assoc]

theorem net_downs (key : α) (keys : List α) : net key (downs keys) = keys.count key := by
  induction keys with
  | nil => rfl
  | cons other keys ih =>
    show (if other = key then (1 : ℤ) else 0) + net key (downs keys) = _
    rw [ih, List.count_cons]
    by_cases hsame : other = key
    · rw [if_pos hsame, if_pos (by simpa using hsame)]
      omega
    · rw [if_neg hsame, if_neg (by simpa using hsame)]
      omega

theorem net_ups (key : α) (keys : List α) : net key (ups keys) = -keys.count key := by
  induction keys with
  | nil => rfl
  | cons other keys ih =>
    show (if other = key then (-1 : ℤ) else 0) + net key (ups keys) = _
    rw [ih, List.count_cons]
    by_cases hsame : other = key
    · rw [if_pos hsame, if_pos (by simpa using hsame)]
      omega
    · rw [if_neg hsame, if_neg (by simpa using hsame)]
      omega

/-! ## Settled streams -/

structure Settled (edges : List (Edge α)) : Prop where
  never : ∀ front, front <+: edges → ∀ key, 0 ≤ net key front
  rest : ∀ key, net key edges = 0

theorem settled_nil : Settled ([] : List (Edge α)) := by
  refine ⟨fun front hfront key => ?_, fun _ => rfl⟩
  rw [List.prefix_nil.mp hfront]
  exact le_refl 0

theorem Settled.append {edges more : List (Edge α)} (h : Settled edges) (h' : Settled more) :
    Settled (edges ++ more) := by
  refine ⟨fun front hfront key => ?_, fun key => ?_⟩
  · obtain hfront | ⟨behind, hbehind, rfl⟩ := prefix_append_cases hfront
    · exact h.never front hfront key
    · rw [net_append, h.rest, zero_add]
      exact h'.never behind hbehind key
  · rw [net_append, h.rest, h'.rest, zero_add]

theorem Settled.flatMap {β : Type*} {parts : List β} {edges : β → List (Edge α)}
    (h : ∀ part ∈ parts, Settled (edges part)) : Settled (parts.flatMap edges) := by
  induction parts with
  | nil => exact settled_nil
  | cons part parts ih =>
    obtain ⟨hpart, hparts⟩ := List.forall_mem_cons.mp h
    rw [List.flatMap_cons]
    exact hpart.append (ih hparts)

/-- Keys that go down, and up again in some order. -/
theorem settled_chord {keys back : List α} (h : back.Perm keys) : Settled (downs keys ++ ups back) := by
  refine ⟨fun front hfront key => ?_, fun key => ?_⟩
  · obtain ⟨rest, hrest⟩ := hfront
    obtain hfront | ⟨behind, ⟨more, hmore⟩, rfl⟩ := prefix_append_cases ⟨rest, hrest⟩
    · obtain ⟨pressed, hpressed, rfl⟩ := List.prefix_map_iff.mp hfront
      exact (net_downs key pressed).symm ▸ Int.natCast_nonneg _
    · have hcount : net key behind + net key more = -back.count key := by
        rw [← net_append, hmore, net_ups]
      obtain ⟨released, hreleased, rfl⟩ := List.prefix_map_iff.mp (show behind <+: ups back from ⟨more, hmore⟩)
      have hle : released.count key ≤ back.count key := hreleased.sublist.count_le key
      have hsame : back.count key = keys.count key := h.count_eq key
      have hup : net key (released.map (⟨·, true⟩ : α → Edge α)) = -released.count key := net_ups key released
      rw [net_append, net_downs, hup]
      omega
  · rw [net_append, net_downs, net_ups, h.count_eq]
    omega

theorem settled_tap (key : α) : Settled [⟨key, false⟩, ⟨key, true⟩] :=
  settled_chord (List.Perm.refl [key])

/-! ## Interleaved streams -/

theorem net_interleaved {ι : Type*} [DecidableEq ι] [Fintype ι] (key : α) (log : List (ι × Edge α)) :
    net key (log.map Prod.snd) = ∑ i, net key (streamOf i log) := by
  induction log with
  | nil => exact (Finset.sum_const_zero).symm
  | cons entry log ih =>
    have hsplit (i : ι) : net key (streamOf i (entry :: log)) =
        (if i = entry.1 then entry.2.delta key else 0) + net key (streamOf i log) := by
      unfold streamOf
      rw [List.filterMap_cons]
      by_cases hsame : entry.1 = i
      · rw [if_pos hsame, if_pos hsame.symm]
        rfl
      · rw [if_neg hsame, if_neg (Ne.symm hsame), zero_add]
    rw [List.map_cons, net_cons, ih, Finset.sum_congr rfl fun i _ => hsplit i, Finset.sum_add_distrib,
      Finset.sum_ite_eq' univ entry.1, if_pos (Finset.mem_univ _)]

end SecOutfall.Balance
