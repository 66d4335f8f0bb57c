import Mathlib.Data.List.Nodup
import Mathlib.Tactic.Common
import Mathlib.Data.Nat.Notation

/-! The table of protected processes (`ProtectedTable`, `driver/secoutfall/Protection.cpp`). -/
namespace SecOutfall.Protection
set_option autoImplicit false

structure Entry where
  pid : UInt32
  createTime : UInt64
  deriving DecidableEq, Repr

/-- The linked list, head first. `_count` is its length. -/
structure ProtectedTable where
  entries : List Entry
  distinct : (entries.map Entry.pid).Nodup
  bounded : entries.length ≤ 128

namespace ProtectedTable

def maxEntries : ℕ := 128

def init : ProtectedTable := ⟨[], List.nodup_nil, by simp⟩

def find (table : ProtectedTable) (pid : UInt32) : Option Entry :=
  table.entries.find? fun entry => entry.pid == pid

def contains (table : ProtectedTable) (pid : UInt32) : Bool := (table.find pid).isSome

def createTimeOf (table : ProtectedTable) (pid : UInt32) : UInt64 :=
  match table.find pid with
  | some entry => entry.createTime
  | none => 0

theorem contains_eq_false {table : ProtectedTable} {pid : UInt32} :
    table.contains pid = false ↔ pid ∉ table.entries.map Entry.pid := by
  simp only [contains, find, Option.isSome_eq_false_iff, Option.isNone_iff_eq_none,
    List.find?_eq_none, beq_iff_eq, List.mem_map, not_exists, not_and]

/-- `Add`: refused for a known pid, a full table or without memory. -/
def add (table : ProtectedTable) (pid : UInt32) (createTime : UInt64) (allocated : Bool) :
    ProtectedTable × Bool :=
  if h : table.contains pid = true ∨ table.entries.length ≥ maxEntries then (table, false)
  else if allocated then
    ({ entries := table.entries ++ [⟨pid, createTime⟩]
       distinct := by
        rw [not_or] at h
        rw [List.map_append, List.map_singleton, List.nodup_append_comm, List.singleton_append]
        exact List.nodup_cons.mpr
          ⟨contains_eq_false.mp (Bool.eq_false_iff.mpr h.1), table.distinct⟩
       bounded := by
        rw [not_or] at h
        rw [List.length_append, List.length_singleton]
        exact Nat.lt_of_not_ge h.2 }, true)
  else (table, false)

def remove (table : ProtectedTable) (pid : UInt32) : ProtectedTable where
  entries := table.entries.eraseP fun entry => entry.pid == pid
  distinct := table.distinct.sublist (List.eraseP_sublist.map Entry.pid)
  bounded := Nat.le_trans List.length_eraseP_le table.bounded

def clear (_table : ProtectedTable) : ProtectedTable := init

end ProtectedTable

end SecOutfall.Protection
