import Mathlib.Data.List.DropRight
import Mathlib.Logic.Function.Basic
import SecOutfall.Foundations.Runs

/-! A map that keeps the first value of a key until the key is erased.

`firstSince` reads the same value off the history: the first one put since the last event that ended the key. -/
namespace SecOutfall.FirstWrite
open Runs
set_option autoImplicit false

inductive Event (κ ν : Type*) where
  | put (key : κ) (value : ν)
  | erase (key : κ)
  | clear

variable {κ ν : Type*} [DecidableEq κ]

namespace Event

/-- The key has no value behind the event. -/
def ends (key : κ) : Event κ ν → Bool
  | put .. => false
  | erase other => other == key
  | clear => true

def putsAt (key : κ) : Event κ ν → Option ν
  | put other value => if other = key then some value else none
  | _ => none

end Event

def step (map : κ → Option ν) : Event κ ν → κ → Option ν
  | .put key value => if (map key).isSome then map else Function.update map key (some value)
  | .erase key => Function.update map key none
  | .clear => fun _ => none

def firstSince (key : κ) (history : List (Event κ ν)) : Option ν :=
  (history.rtakeWhile fun event => !event.ends key).findSome? (Event.putsAt key)

theorem step_apply (map : κ → Option ν) (event : Event κ ν) (key : κ) :
    step map event key = if event.ends key then none else (map key).or (event.putsAt key) := by
  cases event with
  | put other value =>
    simp only [step, Event.ends, Event.putsAt, Bool.false_eq_true, if_false]
    by_cases heq : other = key
    · subst heq
      cases hvalue : map other <;> simp [hvalue]
    · rw [if_neg heq, Option.or_none]
      split
      · rfl
      · exact Function.update_of_ne (Ne.symm heq) _ _
  | erase other =>
    by_cases heq : other = key
    · subst heq
      simp [step, Event.ends]
    · simp [step, Event.ends, Event.putsAt, heq, Function.update_of_ne (Ne.symm heq)]
  | clear => rfl

theorem firstSince_concat (key : κ) (history : List (Event κ ν)) (event : Event κ ν) :
    firstSince key (history ++ [event]) =
      if event.ends key then none else (firstSince key history).or (event.putsAt key) := by
  unfold firstSince
  rw [List.rtakeWhile_concat]
  cases event.ends key with
  | true => rfl
  | false => simp [List.findSome?_append]

/-- The map has what its history says. -/
theorem run_apply (history : List (Event κ ν)) (key : κ) :
    run step (fun _ => none) history key = firstSince key history := by
  induction history using List.reverseRecOn with
  | nil => rfl
  | append_singleton history event ih => rw [run_append, run_cons, run_nil, step_apply, firstSince_concat, ih]

end SecOutfall.FirstWrite
