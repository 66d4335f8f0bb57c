import Mathlib.Tactic.Common
import Mathlib.Data.Nat.Notation

/-! Name lists and their matching (`driver/secoutfall/FileWatch.h`).

Every name test of the driver is a case-insensitive suffix match; names are their WCHARs and the
system's upcase table is the parameter `upcase`. -/
namespace SecOutfall.Control
set_option autoImplicit false

def wide (s : String) : List UInt16 := s.toList.map fun c => .ofNat c.toNat

section
variable (upcase : UInt16 → UInt16)

/-- `RtlEqualUnicodeString` with `CaseInSensitive`. -/
def equalUnicodeString (a b : List UInt16) : Bool := a.map upcase == b.map upcase

def suffixMatches (name suffix : List UInt16) : Bool :=
  suffix.length ≤ name.length &&
    equalUnicodeString upcase (name.drop (name.length - suffix.length)) suffix

/-- `FileWatch`, without its allocations. -/
structure FileWatch where
  enabled : Bool
  extensions : List (List UInt16)
  deriving DecidableEq, Repr

/-- `FileWatch::Matches`: an empty list stands for everything. -/
def FileWatch.covers (watch : FileWatch) (path : List UInt16) : Bool :=
  watch.enabled && (watch.extensions.isEmpty || watch.extensions.any (suffixMatches upcase path))

variable {upcase}

theorem suffixMatches_iff {name suffix : List UInt16} :
    suffixMatches upcase name suffix = true ↔ suffix.map upcase <:+ name.map upcase := by
  rw [List.suffix_iff_eq_drop, List.length_map, List.length_map, suffixMatches, Bool.and_eq_true,
    decide_eq_true_eq, equalUnicodeString, beq_iff_eq, List.map_drop]
  constructor
  · rintro ⟨_, h⟩
    exact h.symm
  · intro h
    refine ⟨?_, h.symm⟩
    have hlength := congrArg List.length h
    rw [List.length_map, List.length_drop, List.length_map] at hlength
    omega

theorem suffixMatches_self (name : List UInt16) : suffixMatches upcase name name = true :=
  suffixMatches_iff.mpr (List.suffix_refl _)

theorem suffixMatches_trans {name middle suffix : List UInt16}
    (h : suffixMatches upcase name middle = true) (h' : suffixMatches upcase middle suffix = true) :
    suffixMatches upcase name suffix = true :=
  suffixMatches_iff.mpr ((suffixMatches_iff.mp h').trans (suffixMatches_iff.mp h))

theorem suffixMatches_nil {suffix : List UInt16} (h : suffix ≠ []) :
    suffixMatches upcase [] suffix = false := by
  rw [Bool.eq_false_iff]
  intro hmatch
  have hnil := List.suffix_nil.mp (suffixMatches_iff.mp hmatch)
  exact h (List.map_eq_nil_iff.mp hnil)

end

end SecOutfall.Control
