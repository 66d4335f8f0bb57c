import Mathlib.Algebra.BigOperators.Fin
import Mathlib.Algebra.Order.BigOperators.Group.Finset
import Mathlib.Logic.Function.Basic

/-! The identity table (`IdentityTable`, `driver/secoutfall/Identity.h`): pid to witnessed creation
time, in hash buckets. -/
namespace SecOutfall.Notify
set_option autoImplicit false

structure IdentityEntry where
  pid : UInt32
  createTime : UInt64
  deriving DecidableEq, Repr

namespace IdentityTable

def bucketCount : ℕ := 256
def maxEntries : ℕ := 4096

/-- Knuth multiplicative, in `ULONG` arithmetic. -/
def hash (pid : UInt32) : Fin bucketCount :=
  ⟨(pid * 2654435761).toNat % bucketCount, Nat.mod_lt _ (by decide)⟩

end IdentityTable

/-- The buckets are linked lists, head first; `count` is a counter beside them. -/
structure IdentityTable where
  buckets : Fin IdentityTable.bucketCount → List IdentityEntry
  count : ℕ
  hashed : ∀ b, ∀ entry ∈ buckets b, IdentityTable.hash entry.pid = b
  distinct : ∀ b, ((buckets b).map IdentityEntry.pid).Nodup
  counted : count = ∑ b, (buckets b).length
  bounded : count ≤ IdentityTable.maxEntries

namespace IdentityTable

@[ext] theorem ext {table table' : IdentityTable} (h : table.buckets = table'.buckets) : table = table' := by
  obtain ⟨buckets, count, hhashed, hdistinct, hcounted, hbounded⟩ := table
  obtain ⟨buckets', count', hhashed', hdistinct', hcounted', hbounded'⟩ := table'
  obtain rfl : buckets = buckets' := h
  obtain rfl : count = count' := by rw [hcounted, hcounted']
  rfl

def init : IdentityTable where
  buckets _ := []
  count := 0
  hashed _ _ h := absurd h List.not_mem_nil
  distinct _ := List.nodup_nil
  counted := by simp
  bounded := Nat.zero_le _

/-! ## Buckets -/

/-- A change of one bucket changes the number of entries by what it changes that bucket by. -/
theorem sum_update (buckets : Fin bucketCount → List IdentityEntry) (b : Fin bucketCount)
    (bucket : List IdentityEntry) :
    (∑ i, (Function.update buckets b bucket i).length) + (buckets b).length =
      (∑ i, (buckets i).length) + bucket.length := by
  rw [← Finset.add_sum_erase _ _ (Finset.mem_univ b),
    ← Finset.add_sum_erase (Finset.univ) (fun i => (buckets i).length) (Finset.mem_univ b)]
  have hrest : ∑ i ∈ Finset.univ.erase b, (Function.update buckets b bucket i).length =
      ∑ i ∈ Finset.univ.erase b, (buckets i).length := by
    refine Finset.sum_congr rfl fun i hi => ?_
    rw [Function.update_of_ne (Finset.ne_of_mem_erase hi)]
  rw [hrest, Function.update_self]
  omega

theorem forall_update {P : Fin bucketCount → List IdentityEntry → Prop}
    {buckets : Fin bucketCount → List IdentityEntry} {b : Fin bucketCount} {bucket : List IdentityEntry}
    (hnew : P b bucket) (hold : ∀ i, P i (buckets i)) (i : Fin bucketCount) :
    P i (Function.update buckets b bucket i) := by
  by_cases hi : i = b
  · subst hi
    rwa [Function.update_self]
  · rw [Function.update_of_ne hi]
    exact hold i

/-! ## Operations -/

def lookupLocked (table : IdentityTable) (pid : UInt32) : Option IdentityEntry :=
  (table.buckets (hash pid)).find? fun entry => entry.pid == pid

theorem lookupLocked_eq_none {table : IdentityTable} {pid : UInt32} :
    table.lookupLocked pid = none ↔ pid ∉ (table.buckets (hash pid)).map IdentityEntry.pid := by
  simp only [lookupLocked, List.find?_eq_none, beq_iff_eq, List.mem_map, not_exists, not_and]

/-- The entry at the tail of its bucket. -/
def link (table : IdentityTable) (pid : UInt32) (createTime : UInt64)
    (hroom : table.count < maxEntries) (hnew : table.lookupLocked pid = none) : IdentityTable where
  buckets := Function.update table.buckets (hash pid) (table.buckets (hash pid) ++ [⟨pid, createTime⟩])
  count := table.count + 1
  hashed := forall_update (P := fun b bucket => ∀ entry ∈ bucket, hash entry.pid = b)
    (by
      intro entry hentry
      obtain hold | hentry := List.mem_append.mp hentry
      · exact table.hashed _ entry hold
      · rw [List.mem_singleton.mp hentry])
    table.hashed
  distinct := forall_update (P := fun _ bucket => (bucket.map IdentityEntry.pid).Nodup)
    (by
      rw [List.map_append, List.map_singleton, List.nodup_append_comm, List.singleton_append]
      exact List.nodup_cons.mpr ⟨lookupLocked_eq_none.mp hnew, table.distinct _⟩)
    table.distinct
  counted := by
    have hsum := sum_update table.buckets (hash pid) (table.buckets (hash pid) ++ [⟨pid, createTime⟩])
    have hcounted := table.counted
    rw [List.length_append, List.length_singleton] at hsum
    omega
  bounded := hroom

/-- `Insert`: a full table refuses also a pid it has. -/
def insert (table : IdentityTable) (pid : UInt32) (createTime : UInt64) (allocated : Bool) :
    IdentityTable × Bool :=
  if hroom : table.count ≥ maxEntries then (table, false)
  else if hknown : (table.lookupLocked pid).isSome then (table, true)
  else if !allocated then (table, false)
  else (table.link pid createTime (Nat.lt_of_not_ge hroom) (by simpa using hknown), true)

def remove (table : IdentityTable) (pid : UInt32) : IdentityTable :=
  match hentry : table.lookupLocked pid with
  | none => table
  | some entry =>
    { buckets := Function.update table.buckets (hash pid)
        ((table.buckets (hash pid)).eraseP fun entry => entry.pid == pid)
      count := table.count - 1
      hashed := forall_update (P := fun b bucket => ∀ entry ∈ bucket, hash entry.pid = b)
        (fun entry h => table.hashed _ entry (List.mem_of_mem_eraseP h)) table.hashed
      distinct := forall_update (P := fun _ bucket => (bucket.map IdentityEntry.pid).Nodup)
        ((table.distinct _).sublist (List.eraseP_sublist.map IdentityEntry.pid)) table.distinct
      counted := by
        have hmem : entry ∈ table.buckets (hash pid) := List.mem_of_find?_eq_some hentry
        have hlength := List.length_eraseP_of_mem hmem (List.find?_some hentry)
        have hpos := List.length_pos_of_mem hmem
        have hsum := sum_update table.buckets (hash pid)
          ((table.buckets (hash pid)).eraseP fun entry => entry.pid == pid)
        have hcounted := table.counted
        omega
      bounded := Nat.le_trans (Nat.sub_le _ _) table.bounded }

/-- `Lookup`: 0 is an unknown identity. -/
def lookup (table : IdentityTable) (pid : UInt32) : UInt64 :=
  match table.lookupLocked pid with
  | some entry => entry.createTime
  | none => 0

end IdentityTable

end SecOutfall.Notify
