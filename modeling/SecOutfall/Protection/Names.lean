import SecOutfall.Control.FileWatch
import SecOutfall.Foundations.NulList

/-! The names of protected processes (`ProtectedNames`, `ProtectionSetPolicy`;
`driver/secoutfall/Protection.cpp`). -/
namespace SecOutfall.Protection
open Control
set_option autoImplicit false

namespace ProtectedNames

def maxNames : ℕ := 64
def maxBlobBytes : ℕ := 4096

/-- `Matches`: nothing matches an empty list. -/
def covers (upcase : UInt16 → UInt16) (names : List (List UInt16)) (name : List UInt16) : Bool :=
  names.any (suffixMatches upcase name)

end ProtectedNames

/-- The names in force afterwards; `none` is the return of false. -/
def protectionSetPolicy (enabled : Bool) (units : List UInt16) (alloc : ℕ → Bool) :
    Option (List (List UInt16)) :=
  if !enabled then some []
  else
    let names := NulList.names 0 units
    if names.length = 0 ∨ names.length > ProtectedNames.maxNames ∨
        2 * units.length > ProtectedNames.maxBlobBytes then none
    else if !(alloc 0 && alloc 1) then none
    else
      let kept := NulList.keep (fun i => alloc (2 + i)) names
      if kept.length ≠ names.length then none else some kept

end SecOutfall.Protection
