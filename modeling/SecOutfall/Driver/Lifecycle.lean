import Mathlib.Data.List.TakeWhile
import SecOutfall.Foundations.Lifetimes
import SecOutfall.Injection.Engine

/-! `DriverEntry` of `driver/secoutfall/secoutfall.cpp`, with its failure path.

From its registration on, a callback may run at any time, and the OS lets none run any more once a removal
returns. The device and its symbolic link count as objects here, the IOCTL handlers as a callback. Allocations
succeed. -/
namespace SecOutfall.Driver
open Lifetimes Runs
set_option autoImplicit false

/-! ## Model -/

inductive Object where
  | device
  -- `\??\secoutfall`
  | symbolicLink
  | identities
  | watch
  | target
  | dropWatch
  -- the ledger hangs off it
  | ledgerLock
  | blocklist
  | extraBlocklist
  | names
  | table
  | drops
  | items
  | files
  deriving DecidableEq, Repr

inductive Callback where
  | process | thread | image | registry | filter | ob | deviceControl
  deriving DecidableEq, Repr

/-- What a callback may dereference. -/
def Callback.reach : Callback → List Object
  | .process => [.identities, .items, .ledgerLock, .blocklist, .extraBlocklist, .names, .table]
  | .thread => [.identities, .items, .ledgerLock]
  | .image => [.ledgerLock, .identities, .items]
  | .registry => [.identities, .items]
  | .filter => [.watch, .identities, .files, .dropWatch, .target, .drops]
  | .ob => [.table, .identities, .items]
  | .deviceControl => [.device, .items, .files, .drops, .watch, .dropWatch, .target, .ledgerLock, .extraBlocklist,
      .names]

/-- The calls of `DriverEntry` that may fail, in their order. -/
inductive Attempt where
  | createDevice | createSymbolicLink | process | thread | image | registry | registerFilter | ob | startFiltering
  deriving DecidableEq, Repr

def attempts : List Attempt :=
  [.createDevice, .createSymbolicLink, .process, .thread, .image, .registry, .registerFilter, .ob, .startFiltering]

/-- The globals, with the compiled defaults on the blocklist: their strings, the text behind them and the array. -/
def globals : List (Step Object Callback) :=
  [.new .identities, .new .watch, .new .target, .new .dropWatch, .new .ledgerLock, .new .blocklist,
    .new .extraBlocklist, .fill .blocklist (Injection.defaultBlocklist.length + 2), .new .names, .new .table,
    .new .drops, .new .items, .new .files]

/-- What an attempt does, with what `DriverEntry` does behind it. -/
def Attempt.steps : Attempt → List (Step Object Callback)
  | .createDevice => [.new .device]
  | .createSymbolicLink => .new .symbolicLink :: globals
  | .process => [.register .process]
  | .thread => [.register .thread]
  | .image => [.register .image]
  | .registry => [.register .registry]
  -- the filter sees nothing before it is started
  | .registerFilter => []
  | .ob => [.register .ob]
  | .startFiltering => [.register .filter]

/-- Before `DriverEntry`; there may be a link of that name. -/
def unloaded (foreignLink : Bool) : World Object Callback where
  live := fun object => foreignLink && object == .symbolicLink
  contents := fun _ => 0
  active := fun _ => false
  leaked := 0
  fault := false

/-- What the failure path leaves behind. -/
def abandoned : List Object := [.ledgerLock, .blocklist, .extraBlocklist, .names, .table]

/-! ## Every outcome -/

def Object.all : List Object :=
  [.device, .symbolicLink, .identities, .watch, .target, .dropWatch, .ledgerLock, .blocklist, .extraBlocklist, .names,
    .table, .drops, .items, .files]

def Callback.all : List Callback := [.process, .thread, .image, .registry, .filter, .ob, .deviceControl]

/-- What the program ends with. -/
def Ends (count : ℕ) (last : Sketch Object Callback) : Prop :=
  if count = 9 then (∀ object ∈ Object.all, object ∈ last.live) ∧ ∀ callback ∈ Callback.all, callback ∈ last.active
  else last.active = [] ∧ ∀ object ∈ Object.all, object ∈ last.live ↔ 2 ≤ count ∧ object ∈ abandoned

instance decidableEnds (count : ℕ) (last : Sketch Object Callback) : Decidable (Ends count last) :=
  inferInstanceAs (Decidable (if count = 9 then _ else _))

end SecOutfall.Driver
