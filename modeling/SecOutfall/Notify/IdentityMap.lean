import Mathlib.Data.List.Chain
import Mathlib.Data.List.FinRange
import SecOutfall.Foundations.AssocList
import SecOutfall.Foundations.FirstWrite
import SecOutfall.Notify.Callbacks

/-! The identity table as a bounded map, and the identities that the callbacks look up.

What the table answers is read off the history of its operations: the time of the first successful `Insert` of a
pid since it was last removed. The callbacks insert at a creation and remove at an exit. -/
namespace SecOutfall.Notify
open FirstWrite Runs
set_option autoImplicit false

/-! ## Operations with their answers -/

inductive TableOp where
  | insert (pid : UInt32) (createTime : UInt64) (allocated : Bool)
  | remove (pid : UInt32)
  | lookup (pid : UInt32)
  | clear
  deriving DecidableEq, Repr

inductive Answer where
  | inserted (ok : Bool)
  | found (createTime : UInt64)
  | done
  deriving DecidableEq, Repr

namespace IdentityTable

/-- `Clear`: every bucket is emptied. -/
def clear (_ : IdentityTable) : IdentityTable := init

def perform (table : IdentityTable) : TableOp → IdentityTable × Answer
  | .insert pid createTime allocated =>
    let inserted := table.insert pid createTime allocated
    (inserted.1, .inserted inserted.2)
  | .remove pid => (table.remove pid, .done)
  | .lookup pid => (table, .found (table.lookup pid))
  | .clear => (table.clear, .done)

def entries (table : IdentityTable) : List IdentityEntry := (List.finRange bucketCount).flatMap table.buckets

/-- The table as a map. -/
def times (table : IdentityTable) (pid : UInt32) : Option UInt64 :=
  (table.lookupLocked pid).map IdentityEntry.createTime

end IdentityTable

/-- What an operation with this answer does to the map, if anything. -/
def effect : TableOp × Answer → Option (Event UInt32 UInt64)
  | (.insert pid createTime _, .inserted true) => some (.put pid createTime)
  | (.remove pid, _) => some (.erase pid)
  | (.clear, _) => some .clear
  | _ => none

/-- A table with the history of its operations. -/
structure Traced where
  table : IdentityTable
  history : List (TableOp × Answer)

def Traced.init : Traced := ⟨IdentityTable.init, []⟩

def Traced.step (s : Traced) (op : TableOp) : Traced :=
  ⟨(s.table.perform op).1, s.history ++ [(op, (s.table.perform op).2)]⟩

/-- The time of the first successful `Insert` since the pid was last removed. -/
def Traced.firstInsert (s : Traced) (pid : UInt32) : Option UInt64 := firstSince pid (s.history.filterMap effect)

/-- The table is the bounded map that its history says. -/
structure Traced.BoundedMap (s : Traced) : Prop where
  counted : s.table.count = s.table.entries.length
  bounded : s.table.count ≤ IdentityTable.maxEntries
  single : (s.table.entries.map IdentityEntry.pid).Nodup
  hashed : ∀ b, ∀ entry ∈ s.table.buckets b, IdentityTable.hash entry.pid = b
  lookup : ∀ pid, s.table.lookup pid = (s.firstInsert pid).getD 0
  refused : ∀ pid createTime allocated, (s.table.insert pid createTime allocated).2 = false →
    (s.table.insert pid createTime allocated).1 = s.table

/-! ## The table as a map -/

namespace IdentityTable

theorem lookup_eq (table : IdentityTable) (pid : UInt32) : table.lookup pid = (table.times pid).getD 0 := by
  unfold lookup times
  cases table.lookupLocked pid <;> rfl

/-- Searching a changed bucket: other buckets are as they were. -/
theorem find?_update (table : IdentityTable) (pid other : UInt32) (bucket : List IdentityEntry) :
    (Function.update table.buckets (hash pid) bucket (hash other)).find? (fun entry => entry.pid == other) =
      if hash other = hash pid then bucket.find? (fun entry => entry.pid == other) else table.lookupLocked other := by
  by_cases hbucket : hash other = hash pid
  · rw [if_pos hbucket, hbucket, Function.update_self]
  · rw [if_neg hbucket, Function.update_of_ne hbucket]
    rfl

theorem lookupLocked_link {table : IdentityTable} {pid : UInt32} (createTime : UInt64)
    (hroom : table.count < maxEntries) (hnew : table.lookupLocked pid = none) (other : UInt32) :
    (table.link pid createTime hroom hnew).lookupLocked other =
      if other = pid then some ⟨pid, createTime⟩ else table.lookupLocked other := by
  rw [lookupLocked, link, find?_update, List.find?_append]
  by_cases heq : other = pid
  · subst heq
    have hnone : (table.buckets (hash other)).find? (fun entry => entry.pid == other) = none := hnew
    simp [hnone]
  · have hentry : (pid == other) = false := beq_false_of_ne (Ne.symm heq)
    rw [if_neg heq, List.find?_singleton]
    simp only [hentry, Bool.false_eq_true, if_false, Option.or_none]
    split
    · rename_i hbucket
      rw [← hbucket, lookupLocked]
    · rfl

theorem times_remove (table : IdentityTable) (pid : UInt32) :
    (table.remove pid).times = Function.update table.times pid none := by
  funext other
  unfold remove
  split
  · rename_i hnone
    by_cases heq : other = pid
    · rw [heq, Function.update_self, times, hnone]
      rfl
    · rw [Function.update_of_ne heq]
  · rw [times, lookupLocked, find?_update, AssocList.find?_eraseP (table.distinct _)]
    by_cases heq : other = pid
    · rw [heq, if_pos rfl, if_pos rfl, Function.update_self]
      rfl
    · rw [if_neg heq, Function.update_of_ne heq, times]
      split
      · rename_i hbucket
        rw [← hbucket, lookupLocked]
      · rfl

theorem insert_refused {table : IdentityTable} {pid : UInt32} {createTime : UInt64} {allocated : Bool}
    (h : (table.insert pid createTime allocated).2 = false) : (table.insert pid createTime allocated).1 = table := by
  unfold insert at h ⊢
  split
  · rfl
  · split
    · rfl
    · split
      · rfl
      · simp_all

/-- A successful `Insert` puts the time unless the pid has one. -/
theorem times_insert {table : IdentityTable} {pid : UInt32} {createTime : UInt64} {allocated : Bool}
    (h : (table.insert pid createTime allocated).2 = true) :
    (table.insert pid createTime allocated).1.times = FirstWrite.step table.times (.put pid createTime) := by
  have hsome : (table.times pid).isSome = (table.lookupLocked pid).isSome := by simp [times]
  unfold insert at h ⊢
  rw [FirstWrite.step, hsome]
  split at h
  · cases h
  · rename_i hroom
    split at h
    · rename_i hknown
      rw [dif_neg hroom, dif_pos hknown, if_pos hknown]
    · rename_i hknown
      cases allocated with
      | false => cases h
      | true =>
        rw [dif_neg hroom, dif_neg hknown, if_neg hknown]
        funext other
        simp only [Bool.not_true, Bool.false_eq_true, if_false]
        rw [times, lookupLocked_link]
        by_cases heq : other = pid
        · rw [if_pos heq, heq, Function.update_self]
          rfl
        · rw [if_neg heq, Function.update_of_ne heq, times]

theorem perform_times (table : IdentityTable) (op : TableOp) : (table.perform op).1.times =
    match effect (op, (table.perform op).2) with
    | none => table.times
    | some event => FirstWrite.step table.times event := by
  cases op with
  | insert pid createTime allocated =>
    unfold perform
    dsimp only
    cases hok : (table.insert pid createTime allocated).2 with
    | false => rw [insert_refused hok]; rfl
    | true => exact times_insert hok
  | remove pid => exact times_remove table pid
  | lookup pid => rfl
  | clear => rfl

theorem length_entries (table : IdentityTable) : table.entries.length = table.count := by
  rw [table.counted, entries, List.length_flatMap, Fin.sum_univ_def]

theorem nodup_entries (table : IdentityTable) : (table.entries.map IdentityEntry.pid).Nodup := by
  rw [entries, List.map_flatMap, List.nodup_flatMap]
  refine ⟨fun b _ => table.distinct b, ?_⟩
  refine (List.nodup_finRange bucketCount).imp fun {b b'} hne => ?_
  intro pid hpid hpid'
  obtain ⟨entry, hentry, rfl⟩ := List.mem_map.mp hpid
  obtain ⟨entry', hentry', heq⟩ := List.mem_map.mp hpid'
  rw [← table.hashed b entry hentry, ← table.hashed b' entry' hentry', heq] at hne
  exact hne rfl

end IdentityTable

/-! ## Histories -/

namespace Traced

theorem table_step (s : Traced) (op : TableOp) : (s.step op).table = (s.table.perform op).1 := rfl

theorem times_run (ops : List TableOp) : (run step init ops).table.times =
    run FirstWrite.step (fun _ => none) ((run step init ops).history.filterMap effect) := by
  refine run_invariant (I := fun s : Traced =>
    s.table.times = run FirstWrite.step (fun _ => none) (s.history.filterMap effect)) (fun s op h => ?_) rfl ops
  have hperform := s.table.perform_times op
  rw [table_step, hperform, step, List.filterMap_append, run_append, ← h, List.filterMap_cons, List.filterMap_nil]
  cases effect (op, (s.table.perform op).2) <;> rfl

/-- Whatever is done to the table, it is the map of its history. -/
theorem boundedMap (ops : List TableOp) : BoundedMap (run step init ops) where
  counted := (run step init ops).table.length_entries.symm
  bounded := (run step init ops).table.bounded
  single := (run step init ops).table.nodup_entries
  hashed := (run step init ops).table.hashed
  lookup pid := by rw [IdentityTable.lookup_eq, times_run, FirstWrite.run_apply, firstInsert]
  refused _ _ _ h := IdentityTable.insert_refused h

end Traced

/-! ## Incarnations -/

inductive Life where
  | created (time : UInt64)
  | exited

def Life.isCreated : Life → Bool
  | created _ => true
  | exited => false

def Life.createTime : Life → Option UInt64
  | created time => some time
  | exited => none

/-- What the notification says of the process, if it is about a process. -/
def Notification.life (pid : UInt32) : Notification → Option Life
  | .processCreated other _ time _ _ => if other = pid then some (.created time) else none
  | .processExited other _ _ => if other = pid then some .exited else none
  | _ => none

def lives (pid : UInt32) (ops : List Notification) : List Life := ops.filterMap (·.life pid)

/-- Creations and exits of the pid take turns. -/
def Alternating (pid : UInt32) (ops : List Notification) : Prop :=
  (lives pid ops).IsChain fun before after => before.isCreated ≠ after.isCreated

instance decidableAlternating (pid : UInt32) (ops : List Notification) : Decidable (Alternating pid ops) :=
  inferInstanceAs (Decidable (List.IsChain _ _))

/-- The creation time of the pid's current incarnation, if it was created and has not exited. -/
def incarnation (pid : UInt32) (ops : List Notification) : Option UInt64 :=
  (lives pid ops).getLast?.bind Life.createTime

/-- The operations of a callback on the table, in their order. -/
def Notification.tableOps : Notification → List TableOp
  | .processCreated pid _ time _ pool => if pool.record then [.insert pid time pool.identity] else []
  | .processExited pid _ _ => [.lookup pid, .remove pid]
  -- an argument of `AllocRecord`: with memory for the record or without
  | .thread pid .. => [.lookup pid]
  | _ => []

theorem insertIdentity_identities (s : System) (pid : UInt32) (createTime : UInt64) (allocated : Bool) :
    (s.insertIdentity pid createTime allocated).identities = (s.identities.insert pid createTime allocated).1 := by
  unfold System.insertIdentity
  dsimp only
  split <;> rfl

section
variable (upcase : UInt16 → UInt16)

/-- A callback touches the table by its operations only. -/
theorem step_identities (s : System) (op : Notification) :
    (step upcase s op).identities = run (fun table op => (table.perform op).1) s.identities op.tableOps := by
  cases op with
  | processCreated pid info time tick pool =>
    unfold step onProcessNotifyCreate Notification.tableOps
    dsimp only
    cases pool.record with
    | false => rfl
    | true => exact insertIdentity_identities s pid time pool.identity
  | processExited pid time allocated =>
    unfold step onProcessNotifyExit Notification.tableOps
    dsimp only
    split_ifs <;> rfl
  | thread pid threadId create found time allocated =>
    unfold step onThreadNotify Notification.tableOps
    dsimp only
    cases allocated with
    | false => rfl
    | true =>
      cases create with
      | false => rfl
      | true => cases found <;> rfl
  | attempt k lookupOk queueOk => rfl
  | fixup k => rfl

theorem insert_times (table : IdentityTable) (pid other : UInt32) (createTime : UInt64) (allocated : Bool) :
    (table.insert pid createTime allocated).1.times other = table.times other ∨
      other = pid ∧ table.times pid = none ∧
        (table.insert pid createTime allocated).1.times other = some createTime := by
  cases hok : (table.insert pid createTime allocated).2 with
  | false => exact .inl (by rw [IdentityTable.insert_refused hok])
  | true =>
    rw [IdentityTable.times_insert hok, step_apply]
    simp only [Event.ends, Event.putsAt, Bool.false_eq_true, if_false]
    by_cases heq : pid = other
    · subst heq
      cases htimes : table.times pid with
      | none => exact .inr ⟨rfl, rfl, by simp⟩
      | some time => exact .inl rfl
    · exact .inl (by rw [if_neg heq, Option.or_none])

/-- What a callback does to one pid's entry: a creation fills it at most if it is empty, an exit empties it. -/
theorem step_times (s : System) (op : Notification) (pid : UInt32) :
    match op.life pid with
    | some (.created time) => (step upcase s op).identities.times pid = s.identities.times pid ∨
        s.identities.times pid = none ∧ (step upcase s op).identities.times pid = some time
    | some .exited => (step upcase s op).identities.times pid = none
    | none => (step upcase s op).identities.times pid = s.identities.times pid := by
  rw [step_identities]
  cases op with
  | processCreated other info time tick pool =>
    unfold Notification.life Notification.tableOps
    have hinsert := insert_times s.identities other pid time pool.identity
    by_cases heq : other = pid
    · subst heq
      simp only [if_true]
      cases pool.record with
      | false => exact .inl rfl
      | true => exact hinsert.imp_right And.right
    · simp only [if_neg heq]
      cases pool.record with
      | false => rfl
      | true =>
        obtain hsame | ⟨hpid, -⟩ := hinsert
        · exact hsame
        · exact absurd hpid.symm heq
  | processExited other time allocated =>
    have hremove := s.identities.times_remove other
    unfold Notification.life Notification.tableOps
    by_cases heq : other = pid
    · subst heq
      simp only [if_true]
      exact (congrFun hremove other).trans (Function.update_self _ _ _)
    · simp only [if_neg heq]
      exact (congrFun hremove pid).trans (Function.update_of_ne (Ne.symm heq) _ _)
  | thread other threadId create found time allocated => rfl
  | attempt k lookupOk queueOk => rfl
  | fixup k => rfl

end

/-! ## Current identities -/

theorem Alternating.left {pid : UInt32} {ops ops' : List Notification} (h : Alternating pid (ops ++ ops')) :
    Alternating pid ops := by
  rw [Alternating, lives, List.filterMap_append] at h
  exact h.left_of_append

/-- A pid that is created had no incarnation before. -/
theorem Alternating.created {pid : UInt32} {ops : List Notification} {op : Notification} {time : UInt64}
    (h : Alternating pid (ops ++ [op])) (hlife : op.life pid = some (.created time)) : incarnation pid ops = none := by
  rw [Alternating, lives, List.filterMap_append, List.isChain_append] at h
  have hturn := h.2.2
  unfold incarnation
  cases hlast : (lives pid ops).getLast? with
  | none => rfl
  | some last =>
    cases last with
    | exited => rfl
    | created earlier => exact absurd rfl (hturn (.created earlier) hlast (.created time) (by simp [hlife]))

theorem incarnation_concat (pid : UInt32) (ops : List Notification) (op : Notification) :
    incarnation pid (ops ++ [op]) =
      match op.life pid with
      | some life => life.createTime
      | none => incarnation pid ops := by
  unfold incarnation lives
  rw [List.filterMap_append]
  cases hlife : op.life pid <;> simp [hlife]

/-- The table knows a pid at most by the creation of its current incarnation. -/
theorem run_times (upcase : UInt16 → UInt16) (policy : Injection.Policy) (names : List (List UInt16)) {pid : UInt32}
    (ops : List Notification) (h : Alternating pid ops) {time : UInt64}
    (htime : (run (step upcase) (System.init policy names) ops).identities.times pid = some time) :
    incarnation pid ops = some time := by
  induction ops using List.reverseRecOn generalizing time with
  | nil => cases htime
  | append_singleton ops op ih =>
    rw [run_append, run_cons, run_nil] at htime
    have hstep := step_times upcase (run (step upcase) (System.init policy names) ops) op pid
    rw [incarnation_concat]
    cases hlife : op.life pid with
    | none =>
      rw [hlife] at hstep
      exact ih h.left (hstep.symm.trans htime)
    | some life =>
      rw [hlife] at hstep
      cases life with
      | exited =>
        rw [hstep] at htime
        cases htime
      | created created =>
        obtain hsame | ⟨-, hnew⟩ := hstep
        · have hearlier := ih h.left (hsame.symm.trans htime)
          rw [h.created hlife] at hearlier
          cases hearlier
        · exact hnew.symm.trans htime

/-- The table is the map of its history; where creations and exits of a pid take turns, whatever any callback looks
up for it is unknown or of its current incarnation. -/
theorem identities_current (tableOps : List TableOp) (upcase : UInt16 → UInt16) (policy : Injection.Policy)
    (names : List (List UInt16)) (ops : List Notification) (pid : UInt32) :
    (run Traced.step Traced.init tableOps).BoundedMap ∧
      (Alternating pid ops → ∀ before after, ops = before ++ after →
        let identity := (run (step upcase) (System.init policy names) before).identities.lookup pid
        identity = 0 ∨ incarnation pid before = some identity) := by
  refine ⟨Traced.boundedMap tableOps, ?_⟩
  rintro h before after rfl identity
  have hlookup : identity = _ := IdentityTable.lookup_eq _ pid
  cases htimes : (run (step upcase) (System.init policy names) before).identities.times pid with
  | none => exact .inl (by rw [hlookup, htimes]; rfl)
  | some time =>
    rw [htimes, Option.getD_some] at hlookup
    rw [hlookup]
    exact .inr (run_times upcase policy names before h.left htimes)

/-- A pid that two processes have one after the other: the second one's identity. -/
theorem recycledPid_current :
    let ops := [.processCreated 8 ⟨4, none, none⟩ 700 1 ⟨true, true, true, true⟩, .thread 8 12 true none 710 true,
      .processExited 8 720 true, .processCreated 8 ⟨4, none, none⟩ 730 2 ⟨true, true, true, true⟩]
    let identity := (run (step id) (System.init ⟨true, none, ⟨false, []⟩⟩ []) ops).identities.lookup 8
    (identity = 0 ∨ incarnation 8 ops = some identity) ∧ identity = 730 := by
  intro ops identity
  exact ⟨(identities_current [] id ⟨true, none, ⟨false, []⟩⟩ [] ops 8).2 (by decide) ops [] rfl, by decide +kernel⟩

end SecOutfall.Notify
