import Mathlib.Data.List.Basic
import Mathlib.Tactic.Common

/-! Streams of self-delimiting items.

A reader takes one item off the front of a stream, or stops. `readAll` reads until it stops. For a reader that
returns every encoded item and ends at every proper beginning of one, reading a stream of encoded items gives
them back, and reading it up to a cut gives those that lie before the cut whole. -/
namespace SecOutfall.Framing
set_option autoImplicit false

variable {β α ε : Type}

inductive Outcome (ε : Type) where
  | ended
  | failed (error : ε)
  deriving DecidableEq, Repr

inductive Reading (β α ε : Type) where
  | item (value : α) (rest : List β)
  | stop (outcome : Outcome ε)

/-- At most `fuel` items, and how the reading stopped. -/
def readAll (read : List β → Reading β α ε) : ℕ → List β → List α × Option (Outcome ε)
  | 0, _ => ([], none)
  | fuel + 1, stream =>
    match read stream with
    | .item value rest =>
      let (values, outcome) := readAll read fuel rest
      (value :: values, outcome)
    | .stop outcome => ([], some outcome)

/-- The items that a stream holds whole before the cut. -/
def wholeBefore (encode : α → List β) : ℕ → List α → List α
  | _, [] => []
  | cut, value :: values =>
    if (encode value).length ≤ cut then value :: wholeBefore encode (cut - (encode value).length) values else []

/-- They are the longest beginning that fits. -/
theorem wholeBefore_spec (encode : α → List β) (cut : ℕ) (values : List α) :
    ∃ rest, values = wholeBefore encode cut values ++ rest ∧
      ((wholeBefore encode cut values).flatMap encode).length ≤ cut ∧
      ∀ next ∈ rest.head?, cut < ((wholeBefore encode cut values ++ [next]).flatMap encode).length := by
  induction values generalizing cut with
  | nil => exact ⟨[], rfl, Nat.zero_le _, fun _ h => by cases h⟩
  | cons value values ih =>
    rw [wholeBefore]
    split
    case isTrue hfits =>
      obtain ⟨rest, hvalues, hle, hnext⟩ := ih (cut - (encode value).length)
      refine ⟨rest, by rw [List.cons_append, ← hvalues], ?_, fun next hmem => ?_⟩
      · rw [List.flatMap_cons, List.length_append]
        omega
      · have hlt := hnext next hmem
        rw [List.cons_append, List.flatMap_cons, List.length_append]
        omega
    case isFalse hcut =>
      refine ⟨value :: values, rfl, Nat.zero_le _, fun next hmem => ?_⟩
      obtain rfl : value = next := by simpa using hmem
      simpa using Nat.not_le.mp hcut

section
variable {read : List β → Reading β α ε} {encode : α → List β} {Valid : α → Prop}

/-- Reading an item up to a cut. -/
theorem read_take (hitem : ∀ value, Valid value → ∀ rest, read (encode value ++ rest) = .item value rest)
    (hshort : ∀ value, Valid value → ∀ n < (encode value).length, read ((encode value).take n) = .stop .ended)
    (hempty : read [] = .stop .ended) {values : List α} (hvalid : ∀ value ∈ values, Valid value) (cut : ℕ) :
    read ((values.flatMap encode).take cut) = .stop .ended ∨
      ∃ value rest cut', values = value :: rest ∧
        read ((values.flatMap encode).take cut) = .item value ((rest.flatMap encode).take cut') := by
  cases values with
  | nil =>
    rw [List.flatMap_nil, List.take_nil]
    exact .inl hempty
  | cons value values =>
    have hvalue := hvalid value List.mem_cons_self
    rw [List.flatMap_cons, List.take_append]
    by_cases hfits : (encode value).length ≤ cut
    · rw [List.take_of_length_le hfits]
      exact .inr ⟨value, values, cut - (encode value).length, rfl, hitem value hvalue _⟩
    · have hlt := Nat.not_le.mp hfits
      rw [Nat.sub_eq_zero_of_le (Nat.le_of_lt hlt), List.take_zero, List.append_nil]
      exact .inl (hshort value hvalue cut hlt)

/-- Reading up to a cut. -/
theorem readAll_take (hitem : ∀ value, Valid value → ∀ rest, read (encode value ++ rest) = .item value rest)
    (hshort : ∀ value, Valid value → ∀ n < (encode value).length, read ((encode value).take n) = .stop .ended)
    (hempty : read [] = .stop .ended) {values : List α} (hvalid : ∀ value ∈ values, Valid value) (cut : ℕ) {fuel : ℕ}
    (hfuel : values.length < fuel) :
    readAll read fuel ((values.flatMap encode).take cut) = (wholeBefore encode cut values, some .ended) := by
  induction values generalizing cut fuel with
  | nil =>
    obtain ⟨fuel, rfl⟩ := Nat.exists_eq_succ_of_ne_zero (Nat.ne_of_gt hfuel)
    rw [List.flatMap_nil, List.take_nil, readAll, hempty]
    rfl
  | cons value values ih =>
    obtain ⟨fuel, rfl⟩ := Nat.exists_eq_succ_of_ne_zero (Nat.ne_of_gt (Nat.zero_lt_of_lt hfuel))
    obtain ⟨hvalue, hvalues⟩ := List.forall_mem_cons.mp hvalid
    rw [List.flatMap_cons, List.take_append, wholeBefore, readAll]
    by_cases hfits : (encode value).length ≤ cut
    · rw [if_pos hfits, List.take_of_length_le hfits, hitem value hvalue]
      simp only
      rw [ih hvalues _ (Nat.lt_of_succ_lt_succ hfuel)]
    · have hlt := Nat.not_le.mp hfits
      rw [if_neg hfits, Nat.sub_eq_zero_of_le (Nat.le_of_lt hlt), List.take_zero, List.append_nil,
        hshort value hvalue cut hlt]

theorem wholeBefore_length (values : List α) : wholeBefore encode (values.flatMap encode).length values = values := by
  induction values with
  | nil => rfl
  | cons value values ih =>
    rw [List.flatMap_cons, List.length_append, wholeBefore, if_pos (Nat.le_add_right _ _), Nat.add_sub_cancel_left, ih]

/-- Reading all of it. -/
theorem readAll_encode (hitem : ∀ value, Valid value → ∀ rest, read (encode value ++ rest) = .item value rest)
    (hshort : ∀ value, Valid value → ∀ n < (encode value).length, read ((encode value).take n) = .stop .ended)
    (hempty : read [] = .stop .ended) {values : List α} (hvalid : ∀ value ∈ values, Valid value) {fuel : ℕ}
    (hfuel : values.length < fuel) : readAll read fuel (values.flatMap encode) = (values, some .ended) := by
  have hall := readAll_take hitem hshort hempty hvalid (values.flatMap encode).length hfuel
  rwa [List.take_length, wholeBefore_length] at hall

end
end SecOutfall.Framing
