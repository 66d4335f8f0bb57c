import Mathlib.Data.List.Basic
import Mathlib.Tactic.Common

/-! Lists of names in one block, each behind it a terminator.

Two readers: one takes names until an empty one or the end of the block, the other wants a given
number of terminated names. A name may need something to be kept, of which `room` says whether
there is any for the n-th one. -/
namespace SecOutfall.NulList
set_option autoImplicit false

variable {α : Type*} (nul : α)

def joined (names : List (List α)) : List α := names.flatMap fun name => name ++ [nul]

@[simp] theorem joined_cons (name : List α) (names : List (List α)) :
    joined nul (name :: names) = name ++ nul :: joined nul names := by
  simp [joined]

/-- A name that a reader can find again. -/
def IsName (name : List α) : Prop := name ≠ [] ∧ nul ∉ name

/-- As many of the names as can be kept, up to the first that cannot. -/
def keep (room : ℕ → Bool) : List (List α) → List (List α)
  | [] => []
  | name :: rest => if room 0 then name :: keep (fun i => room (i + 1)) rest else []

theorem keep_all {room : ℕ → Bool} (h : ∀ i, room i = true) (list : List (List α)) :
    keep room list = list := by
  induction list generalizing room with
  | nil => rfl
  | cons name rest ih => rw [keep, if_pos (h 0), ih fun i => h (i + 1)]

variable [DecidableEq α]

/-! ## Up to an empty name -/

def namesFrom : List α → List α → List (List α)
  | [], name => if name = [] then [] else [name]
  | unit :: rest, name =>
    if unit = nul then
      if name = [] then [] else name :: namesFrom rest []
    else namesFrom rest (name ++ [unit])

/-- The names of a block; the end of the block terminates the last one. -/
def names (units : List α) : List (List α) := namesFrom nul units []

theorem namesFrom_append {name : List α} (h : nul ∉ name) (rest before : List α) :
    namesFrom nul (name ++ rest) before = namesFrom nul rest (before ++ name) := by
  induction name generalizing before with
  | nil => simp
  | cons unit name ih =>
    rw [List.mem_cons, not_or] at h
    rw [List.cons_append, namesFrom, if_neg (Ne.symm h.1), ih h.2, List.append_assoc,
      List.singleton_append]

theorem names_cons {name : List α} (h : IsName nul name) (rest : List α) :
    names nul (name ++ nul :: rest) = name :: names nul rest := by
  rw [names, namesFrom_append nul h.2, List.nil_append, namesFrom, if_pos rfl, if_neg h.1]
  rfl

theorem names_joined {list : List (List α)} (h : ∀ name ∈ list, IsName nul name) (rest : List α) :
    names nul (joined nul list ++ rest) = list ++ names nul rest := by
  induction list with
  | nil => rfl
  | cons name list ih =>
    rw [joined_cons, List.append_assoc, List.cons_append, names_cons nul (h name List.mem_cons_self),
      ih fun x hx => h x (List.mem_cons_of_mem name hx), List.cons_append]

theorem isName_of_mem_namesFrom {units before : List α} (hbefore : nul ∉ before) {name : List α}
    (h : name ∈ namesFrom nul units before) : IsName nul name := by
  induction units generalizing before with
  | nil =>
    rw [namesFrom] at h
    split at h
    · cases h
    · rename_i hne
      rw [List.mem_singleton.mp h]
      exact ⟨hne, hbefore⟩
  | cons unit units ih =>
    rw [namesFrom] at h
    split at h
    · split at h
      · cases h
      · rename_i hne
        rcases List.mem_cons.mp h with rfl | hrest
        · exact ⟨hne, hbefore⟩
        · exact ih List.not_mem_nil hrest
    · rename_i hunit
      apply ih _ h
      rw [List.mem_append, List.mem_singleton, not_or]
      exact ⟨hbefore, Ne.symm hunit⟩

theorem isName_of_mem_names {units name : List α} (h : name ∈ names nul units) : IsName nul name :=
  isName_of_mem_namesFrom nul List.not_mem_nil h

/-! ## A given number of names -/

/-- `count` terminated names, all of them kept. -/
def take (room : ℕ → Bool) : ℕ → List α → Option (List (List α))
  | 0, _ => some []
  | count + 1, units =>
    match units.dropWhile (· ≠ nul) with
    | [] => none
    | _ :: rest =>
      let name := units.takeWhile (· ≠ nul)
      if name = [] then none
      else if room 0 then (take (fun i => room (i + 1)) count rest).map (name :: ·)
      else none

theorem take_joined {room : ℕ → Bool} (hroom : ∀ i, room i = true) {list : List (List α)}
    (h : ∀ name ∈ list, IsName nul name) (rest : List α) :
    take nul room list.length (joined nul list ++ rest) = some list := by
  induction list generalizing room with
  | nil => rfl
  | cons name list ih =>
    have hname := h name List.mem_cons_self
    have hkeep : ∀ unit ∈ name, decide (unit ≠ nul) = true := by
      intro unit hunit
      rw [decide_eq_true_eq]
      rintro rfl
      exact hname.2 hunit
    have hrest := ih (fun i => hroom (i + 1)) fun x hx => h x (List.mem_cons_of_mem name hx)
    rw [joined_cons, List.append_assoc, List.cons_append, List.length_cons, take,
      List.dropWhile_append_of_pos hkeep, List.takeWhile_append_of_pos hkeep,
      List.dropWhile_cons_of_neg (by simp), List.takeWhile_cons_of_neg (by simp), List.append_nil]
    simp only [if_neg hname.1, if_pos (hroom 0), hrest, Option.map_some]

end SecOutfall.NulList
