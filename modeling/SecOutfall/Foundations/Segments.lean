import Mathlib.Algebra.Ring.Nat
import Mathlib.Algebra.Order.BigOperators.Group.List
import Mathlib.Tactic.Common

/-! Histories of segments that follow one another.

Each key has its own line of numbers, consumed from 0 upwards. A history is `Consecutive` when
every segment starts where the last one of its key ended; then the segments of a key tile the
numbers below its reach, each of them once and in order. -/
namespace SecOutfall.Segments
set_option autoImplicit false

structure Segment (κ : Type*) where
  key : κ
  start : ℕ
  stop : ℕ

variable {κ : Type*} [DecidableEq κ]

def Segment.length (seg : Segment κ) : ℕ := seg.stop - seg.start

/-- Where the last segment of a key ended. -/
def reach (segs : List (Segment κ)) (k : κ) : ℕ :=
  segs.foldl (fun pos seg => if seg.key = k then seg.stop else pos) 0

@[simp] theorem reach_nil (k : κ) : reach [] k = 0 := rfl

theorem reach_snoc (segs : List (Segment κ)) (seg : Segment κ) (k : κ) :
    reach (segs ++ [seg]) k = if seg.key = k then seg.stop else reach segs k := by
  rw [reach, List.foldl_append]
  rfl

inductive Consecutive : List (Segment κ) → Prop where
  | nil : Consecutive []
  | snoc {segs : List (Segment κ)} {seg : Segment κ} (h : Consecutive segs)
      (hstart : seg.start = reach segs seg.key) (hle : seg.start ≤ seg.stop) :
      Consecutive (segs ++ [seg])

section
variable {segs : List (Segment κ)}

theorem Consecutive.stop_le_reach (h : Consecutive segs) :
    ∀ seg ∈ segs, seg.stop ≤ reach segs seg.key := by
  induction h with
  | nil => intro seg hseg; exact absurd hseg List.not_mem_nil
  | @snoc segs last h hstart hle ih =>
    intro seg hseg
    rw [reach_snoc]
    rcases List.mem_append.mp hseg with hold | hlast
    · have hstop := ih seg hold
      split
      · rename_i hkey
        rw [hstart, hkey] at hle
        exact le_trans hstop hle
      · exact hstop
    · rw [List.mem_singleton.mp hlast, if_pos rfl]

/-- The segments of a key add up to its reach. -/
theorem Consecutive.sum_length (h : Consecutive segs) (k : κ) :
    ((segs.filter fun seg => seg.key = k).map Segment.length).sum = reach segs k := by
  induction h with
  | nil => rfl
  | @snoc segs last h hstart hle ih =>
    rw [reach_snoc, List.filter_append, List.map_append, List.sum_append, ih]
    by_cases hkey : last.key = k
    · subst hkey
      simp only [decide_true, List.filter_cons_of_pos, List.filter_nil, List.map_cons, List.map_nil,
        List.sum_cons, List.sum_nil, Segment.length, if_true]
      omega
    · simp [hkey]

/-- Every number below the reach is in one segment of the key, and no other is in any. -/
theorem Consecutive.covered_once (h : Consecutive segs) (k : κ) (i : ℕ) :
    segs.countP (fun seg => seg.key = k ∧ seg.start ≤ i ∧ i < seg.stop) =
      if i < reach segs k then 1 else 0 := by
  induction h with
  | nil => simp
  | @snoc segs last h hstart hle ih =>
    rw [List.countP_append, ih, reach_snoc, List.countP_singleton]
    by_cases hkey : last.key = k
    · subst hkey
      simp only [true_and, decide_eq_true_eq, if_true]
      split_ifs <;> omega
    · simp [hkey]

/-- Segments of one key come in increasing order. -/
theorem Consecutive.ordered (h : Consecutive segs) :
    segs.Pairwise fun a b => a.key = b.key → a.stop ≤ b.start := by
  induction h with
  | nil => exact List.Pairwise.nil
  | @snoc segs last h hstart hle ih =>
    rw [List.pairwise_append]
    refine ⟨ih, List.pairwise_singleton _ _, ?_⟩
    intro a ha b hb hkey
    rw [List.mem_singleton.mp hb] at hkey ⊢
    rw [hstart, ← hkey]
    exact h.stop_le_reach a ha

end

end SecOutfall.Segments
