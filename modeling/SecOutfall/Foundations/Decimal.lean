import Mathlib.Tactic.Common
import Mathlib.Data.Nat.Notation

/-! Decimal numbers joined by a separator into a name. -/
namespace SecOutfall.Decimal
set_option autoImplicit false

theorem toDigits_inj {m n : ℕ} (h : Nat.toDigits 10 m = Nat.toDigits 10 n) : m = n := by
  have hvalue := congrArg (fun digits => Nat.ofDigitChars 10 digits 0) h
  simpa only [Nat.ofDigitChars_ten_toDigits] using hvalue

theorem dash_notMem_toDigits (n : ℕ) : '-' ∉ Nat.toDigits 10 n := by
  intro hmem
  exact absurd (Nat.isDigit_of_mem_toDigits (by decide) (by decide) hmem) (by decide)

/-- What stands before the first dash, and behind it. -/
theorem append_dash_inj {left left' right right' : List Char} (hleft : '-' ∉ left) (hleft' : '-' ∉ left')
    (h : left ++ '-' :: right = left' ++ '-' :: right') : left = left' ∧ right = right' := by
  obtain ⟨more, rfl, hright⟩ | ⟨more, rfl, hright⟩ := List.append_eq_append_iff.mp h
  all_goals
    cases more with
    | nil => simpa [eq_comm] using hright
    | cons c more =>
      obtain ⟨rfl, -⟩ := List.cons.inj hright
      simp at hleft hleft'

end SecOutfall.Decimal
