import Mathlib.Data.List.DropRight
import Mathlib.Tactic.Common

/-! A list behind and from the last occurrence of an element.

With two marks, such as the dots and the separators of a path, the last dot may come before the last
separator; then the part from the dot reaches over it. -/
namespace SecOutfall.LastOccurrence
set_option autoImplicit false

variable {α : Type*} [DecidableEq α] {mark : α}

/-- The whole list if the mark does not occur. -/
def behindLast (mark : α) (l : List α) : List α := l.rtakeWhile (· ≠ mark)

/-- Empty if the mark does not occur. -/
def fromLast (mark : α) (l : List α) : List α := if mark ∈ l then mark :: behindLast mark l else []

theorem not_mem_behindLast (mark : α) (l : List α) : mark ∉ behindLast mark l := by
  intro h
  unfold behindLast at h
  have hne := List.mem_rtakeWhile_imp h
  exact of_decide_eq_true hne rfl

theorem behindLast_suffix (mark : α) (l : List α) : behindLast mark l <:+ l := List.rtakeWhile_suffix _ _

theorem behindLast_concat (mark x : α) (l : List α) :
    behindLast mark (l ++ [x]) = if x = mark then [] else behindLast mark l ++ [x] := by
  rw [behindLast, List.rtakeWhile_concat]
  by_cases hx : x = mark
  · simp [hx]
  · simp [hx, behindLast]

theorem behindLast_append_cons {l tail : List α} (h : mark ∉ tail) : behindLast mark (l ++ mark :: tail) = tail := by
  induction tail using List.reverseRecOn with
  | nil => rw [behindLast_concat, if_pos rfl]
  | append_singleton tail x ih =>
    obtain ⟨htail, hx⟩ := not_or.mp (mt List.mem_append.mpr h)
    have hne : x ≠ mark := fun heq => hx (by simp [heq])
    rw [← List.cons_append, ← List.append_assoc, behindLast_concat, if_neg hne, ih htail]

theorem eq_append_of_mem {l : List α} (h : mark ∈ l) : ∃ front, l = front ++ mark :: behindLast mark l := by
  induction l using List.reverseRecOn with
  | nil => cases h
  | append_singleton l x ih =>
    by_cases hx : x = mark
    · exact ⟨l, by rw [behindLast_concat, if_pos hx, hx]⟩
    · have hmem : mark ∈ l := (List.mem_append.mp h).resolve_right fun hlast =>
        hx (List.mem_singleton.mp hlast).symm
      obtain ⟨front, hfront⟩ := ih hmem
      refine ⟨front, ?_⟩
      rw [behindLast_concat, if_neg hx, ← List.cons_append, ← List.append_assoc, ← hfront]

theorem fromLast_eq_nil {l : List α} : fromLast mark l = [] ↔ mark ∉ l := by
  unfold fromLast
  split <;> simp_all

theorem fromLast_suffix (mark : α) (l : List α) : fromLast mark l <:+ l := by
  unfold fromLast
  split
  · rename_i h
    obtain ⟨front, hfront⟩ := eq_append_of_mem h
    exact ⟨front, hfront.symm⟩
  · exact List.nil_suffix

theorem fromLast_append_cons {l tail : List α} (h : mark ∉ tail) :
    fromLast mark (l ++ mark :: tail) = mark :: tail := by
  rw [fromLast, if_pos (by simp), behindLast_append_cons h]

theorem fromLast_concat (mark x : α) (l : List α) :
    fromLast mark (l ++ [x]) =
      if x = mark then [mark] else if mark ∈ l then fromLast mark l ++ [x] else [] := by
  by_cases hx : x = mark
  · rw [if_pos hx, hx, fromLast_append_cons List.not_mem_nil]
  · rw [if_neg hx, fromLast, behindLast_concat, if_neg hx]
    by_cases hmem : mark ∈ l
    · rw [if_pos (List.mem_append_left _ hmem), if_pos hmem, fromLast, if_pos hmem, List.cons_append]
    · have hall : mark ∉ l ++ [x] := by simp [hmem, Ne.symm hx]
      rw [if_neg hall, if_neg hmem]

/-- Where the mark occurs in the tail of a list, the tail decides. -/
theorem fromLast_of_suffix {l tail : List α} (hsuffix : tail <:+ l) (h : mark ∈ tail) :
    fromLast mark l = fromLast mark tail := by
  obtain ⟨front, rfl⟩ := hsuffix
  obtain ⟨before, htail⟩ := eq_append_of_mem h
  rw [htail, ← List.append_assoc, fromLast_append_cons (not_mem_behindLast mark tail),
    fromLast_append_cons (not_mem_behindLast mark tail)]

end SecOutfall.LastOccurrence
