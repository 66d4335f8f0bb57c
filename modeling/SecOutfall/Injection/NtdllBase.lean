import SecOutfall.Foundations.Runs
import SecOutfall.Injection.Ledger

/-! Which base an injection adds to the address of `LdrLoadDll`.

`InjectionOnImageLoad` tests the image's name only to resolve the RVA; the base it records in the
entry is that of the first image the process loads, whatever its name. Along runs in which the
recorded image always is ntdll, every queued APC aims into the ntdll of its own process. -/
namespace SecOutfall.Injection
open Runs Control
set_option autoImplicit false

variable (upcase : UInt16 → UInt16)

/-- `base` was reported by a load of ntdll in this incarnation of the process. -/
def IsNtdll (s : Engine) (pid : UInt32) (incarnation : ℕ) (base : UInt64) : Prop :=
  ∃ load ∈ s.loads, load.pid = pid ∧ load.incarnation = incarnation ∧ load.base = base ∧
    suffixMatches upcase load.name ntdllSuffix = true

/-- A step that records a base in a live entry records one of ntdll. -/
def RecordsNtdll (s : Engine) : Op → Prop
  | .imageLoad pid base name => ∀ entry ∈ findEntry s.ledger pid, entry.ntdllBase = 0 → base ≠ 0 →
      suffixMatches upcase name ntdllSuffix = true
  | _ => True

instance (s : Engine) : ∀ op, Decidable (RecordsNtdll upcase s op)
  | .imageLoad pid base name => inferInstanceAs (Decidable (∀ entry ∈ findEntry s.ledger pid,
      entry.ntdllBase = 0 → base ≠ 0 → suffixMatches upcase name ntdllSuffix = true))
  | .setPolicy _ | .processCreate .. | .firstThread .. | .resolve .. | .attempt .. | .fixup _
  | .processExit _ => isTrue trivial

/-- The bases an engine has recorded, snapshotted and used. -/
structure TargetsNtdll (s : Engine) : Prop where
  distinct : (s.ledger.map InjectionEntry.pid).Nodup
  entries : ∀ entry ∈ s.ledger, entry.ntdllBase ≠ 0 →
    IsNtdll upcase s entry.pid (s.exits entry.pid) entry.ntdllBase
  attempts : ∀ attempt ∈ s.attempts, IsNtdll upcase s attempt.pid attempt.incarnation attempt.ntdllBase
  apcs : ∀ apc ∈ s.apcs, IsNtdll upcase s apc.pid apc.incarnation apc.ntdllBase

/-! ## Steps -/

section
variable {upcase} {s s' : Engine}

theorem IsNtdll.mono {pid : UInt32} {incarnation : ℕ} {base : UInt64}
    (hsub : s.loads ⊆ s'.loads) (h : IsNtdll upcase s pid incarnation base) :
    IsNtdll upcase s' pid incarnation base := by
  obtain ⟨load, hmem, hload⟩ := h
  exact ⟨load, hsub hmem, hload⟩

theorem TargetsNtdll.update (h : TargetsNtdll upcase s) (pid : UInt32)
    {f : InjectionEntry → InjectionEntry} (hpid : ∀ e, (f e).pid = e.pid)
    (hbase : ∀ e, (f e).ntdllBase = e.ntdllBase) :
    TargetsNtdll upcase { s with ledger := updateEntry pid f s.ledger } where
  distinct := by
    rw [updateEntry_pids hpid]
    exact h.distinct
  entries := by
    intro entry hentry hne
    rcases mem_updateEntry hentry with hold | ⟨old, hfind, rfl⟩
    · exact h.entries entry hold hne
    · rw [hbase] at hne ⊢
      rw [hpid]
      exact h.entries old (findEntry_mem hfind).1 hne
  attempts := h.attempts
  apcs := h.apcs

theorem TargetsNtdll.tryInjectLocked (h : TargetsNtdll upcase s) (pid : UInt32) :
    TargetsNtdll upcase (Injection.tryInjectLocked s pid) := by
  unfold Injection.tryInjectLocked
  split
  · exact h
  · rename_i entry hfind
    split
    · split
      · exact h
      · rename_i hchecks
        split
        · exact h
        · have hne : entry.ntdllBase ≠ 0 := by
            intro h0
            simp [h0] at hchecks
          have hupdate := h.update pid (f := fun e => { e with state := .injected }) (fun _ => rfl) fun _ => rfl
          obtain ⟨hmem, rfl⟩ := findEntry_mem hfind
          refine ⟨hupdate.distinct, hupdate.entries, ?_, hupdate.apcs⟩
          intro attempt hattempt
          rcases List.mem_append.mp hattempt with hold | hnew
          · exact h.attempts attempt hold
          · rw [List.mem_singleton.mp hnew]
            exact h.entries entry hmem hne
    · exact h

theorem TargetsNtdll.onProcessCreate (h : TargetsNtdll upcase s) (pid : UInt32) (createTime : UInt64)
    (name : Option (List UInt16)) (tick : UInt64) (allocated : Bool) :
    TargetsNtdll upcase (Injection.onProcessCreate upcase s pid createTime name tick allocated) := by
  unfold Injection.onProcessCreate
  split
  · exact h
  · split
    · exact ⟨h.distinct, h.entries, h.attempts, h.apcs⟩
    · simp only
      split
      · exact ⟨h.distinct, h.entries, h.attempts, h.apcs⟩
      · rename_i hnone
        refine ⟨?_, ?_, h.attempts, h.apcs⟩
        · rw [List.map_append, List.map_singleton, List.nodup_append_comm, List.singleton_append]
          exact List.nodup_cons.mpr ⟨findEntry_eq_none hnone, h.distinct⟩
        · intro entry hentry hne
          rcases List.mem_append.mp hentry with hold | hnew
          · exact h.entries entry hold hne
          · rw [List.mem_singleton.mp hnew] at hne
            exact absurd rfl hne

theorem TargetsNtdll.onFirstThread (h : TargetsNtdll upcase s) (pid : UInt32) (thread : ℕ) :
    TargetsNtdll upcase (Injection.onFirstThread s pid thread) := by
  unfold Injection.onFirstThread
  split
  · exact h
  · exact (h.update pid (seeThread_pid thread) (seeThread_ntdllBase thread)).tryInjectLocked pid

theorem TargetsNtdll.onImageLoad (h : TargetsNtdll upcase s) {pid : UInt32} {base : UInt64}
    {name : List UInt16} (hrecords : RecordsNtdll upcase s (.imageLoad pid base name)) :
    TargetsNtdll upcase (Injection.onImageLoad s pid base name) := by
  set s' : Engine := { s with loads := s.loads ++ [⟨pid, s.exits pid, base, name⟩] } with hs'
  have hmono : s.loads ⊆ s'.loads := List.subset_append_left _ _
  have h' : TargetsNtdll upcase s' :=
    ⟨h.distinct, fun e he hne => (h.entries e he hne).mono hmono,
      fun a ha => (h.attempts a ha).mono hmono, fun a ha => (h.apcs a ha).mono hmono⟩
  unfold Injection.onImageLoad
  simp only [← hs']
  split
  · exact h'
  · suffices hrecorded : TargetsNtdll upcase { s' with ledger := updateEntry pid (seeImage base) s'.ledger } from
      hrecorded.tryInjectLocked pid
    refine ⟨?_, ?_, h'.attempts, h'.apcs⟩
    · rw [updateEntry_pids (seeImage_pid base)]
      exact h'.distinct
    · intro entry hentry hne
      rcases mem_updateEntry hentry with hold | ⟨old, hold, rfl⟩
      · exact h'.entries entry hold hne
      · obtain ⟨hmem, hpid⟩ := findEntry_mem hold
        rw [seeImage_ntdllBase] at hne ⊢
        rw [seeImage_pid]
        split at hne
        · rename_i hzero
          -- the base recorded now is that of the load just reported
          rw [if_pos hzero]
          exact ⟨⟨pid, s.exits pid, base, name⟩, by simp [hs'], hpid.symm, by rw [hpid], rfl,
            hrecords old hold hzero hne⟩
        · rename_i hset
          rw [if_neg hset]
          exact h'.entries old hmem hset

theorem TargetsNtdll.runAttempt (h : TargetsNtdll upcase s) (k : ℕ) (lookupOk queueOk : Bool) :
    TargetsNtdll upcase (Injection.runAttempt s k lookupOk queueOk) := by
  unfold Injection.runAttempt
  split
  · exact h
  · rename_i attempt hattempt
    have hbase := h.attempts attempt (List.mem_of_getElem? hattempt)
    have hset : ∀ result, ∀ a ∈ s.attempts.set k { attempt with result := result },
        IsNtdll upcase s a.pid a.incarnation a.ntdllBase := by
      intro result a ha
      rcases List.mem_or_eq_of_mem_set ha with hold | rfl
      · exact h.attempts a hold
      · exact hbase
    split
    · exact h
    · split
      · exact ⟨h.distinct, h.entries, hset _, h.apcs⟩
      · split
        · exact ⟨h.distinct, h.entries, hset _, h.apcs⟩
        · split
          · exact ⟨h.distinct, h.entries, hset _, h.apcs⟩
          · refine ⟨h.distinct, h.entries, hset _, ?_⟩
            intro apc hapc
            rcases List.mem_append.mp hapc with hold | hnew
            · exact h.apcs apc hold
            · rw [List.mem_singleton.mp hnew]
              exact hbase

theorem TargetsNtdll.fixup (h : TargetsNtdll upcase s) (k : ℕ) :
    TargetsNtdll upcase (Injection.fixup s k) := by
  have herase : TargetsNtdll upcase { s with attempts := s.attempts.eraseIdx k } :=
    ⟨h.distinct, h.entries, fun a ha => h.attempts a (List.mem_of_mem_eraseIdx ha), h.apcs⟩
  unfold Injection.fixup
  split
  · exact h
  · rename_i attempt _
    split
    · exact h
    · simp only
      split
      · exact herase
      · split
        · exact ⟨herase.distinct, herase.entries, herase.attempts, herase.apcs⟩
        · exact herase.update _ (fun _ => rfl) fun _ => rfl
        · have hupdate := herase.update attempt.pid (f := fun e => { e with state := .failed }) (fun _ => rfl) fun _ => rfl
          exact ⟨hupdate.distinct, hupdate.entries, hupdate.attempts, hupdate.apcs⟩

theorem TargetsNtdll.onProcessExit (h : TargetsNtdll upcase s) (pid : UInt32) :
    TargetsNtdll upcase (Injection.onProcessExit s pid) where
  distinct := h.distinct.sublist (List.eraseP_sublist.map InjectionEntry.pid)
  entries := by
    intro entry hentry hne
    obtain ⟨hmem, hother⟩ := mem_unlinkEntry h.distinct hentry
    simp only [Injection.onProcessExit, if_neg hother]
    exact h.entries entry hmem hne
  attempts := h.attempts
  apcs := h.apcs

theorem TargetsNtdll.step (h : TargetsNtdll upcase s) (op : Op) (hop : RecordsNtdll upcase s op) :
    TargetsNtdll upcase (Injection.step upcase s op) := by
  cases op with
  | setPolicy policy => exact ⟨h.distinct, h.entries, h.attempts, h.apcs⟩
  | processCreate pid createTime name tick allocated =>
    exact h.onProcessCreate pid createTime name tick allocated
  | firstThread pid thread => exact h.onFirstThread pid thread
  | resolve name resolved =>
    simp only [Injection.step, resolveLdrLoadDll]
    split
    · exact ⟨h.distinct, h.entries, h.attempts, h.apcs⟩
    · exact h
  | imageLoad pid base name => exact h.onImageLoad hop
  | attempt k lookupOk queueOk => exact h.runAttempt k lookupOk queueOk
  | fixup k => exact h.fixup k
  | processExit pid => exact h.onProcessExit pid

end

/-! ## Runs -/

theorem init_targetsNtdll (policy : Policy) : TargetsNtdll upcase (init policy) :=
  ⟨List.nodup_nil, by simp [init], by simp [init], by simp [init]⟩

/-- Along every interleaving that records ntdll bases only, each queued APC takes its base from a
load of ntdll in the same incarnation of the process. -/
theorem run_apcs_target_ntdll (policy : Policy) (ops : List Op)
    (h : Along (step upcase) (RecordsNtdll upcase) (init policy) ops) :
    ∀ apc ∈ (run (step upcase) (init policy) ops).apcs,
      IsNtdll upcase (run (step upcase) (init policy) ops) apc.pid apc.incarnation apc.ntdllBase :=
  (h.invariant (fun _ op hs hop => hs.step op hop) (init_targetsNtdll upcase policy)).apcs

/-! ## A first image that is not ntdll -/

def asciiUpcase (c : UInt16) : UInt16 := if 0x61 ≤ c ∧ c ≤ 0x7A then c - 0x20 else c

def everyProcess : Policy := ⟨true, some (wide "\\sensor.dll"), ⟨false, []⟩⟩

def startWith (images : List (UInt64 × List UInt16)) : List Op :=
  .processCreate 4000 7 none 0 true ::
    images.flatMap (fun image => [.resolve image.2 (some 0x5000), .imageLoad 4000 image.1 image.2]) ++
    [.firstThread 4000 1, .attempt 0 true true]

/-- With ntdll mapped first the APC aims into it. -/
theorem ntdllFirst_targets :
    ∃ apc ∈ (run (step asciiUpcase) (init everyProcess)
        (startWith [(0x7FF0, wide "\\ntdll.dll"), (0x4000, wide "\\evil.exe")])).apcs,
      IsNtdll asciiUpcase (run (step asciiUpcase) (init everyProcess)
        (startWith [(0x7FF0, wide "\\ntdll.dll"), (0x4000, wide "\\evil.exe")]))
        apc.pid apc.incarnation apc.ntdllBase := by
  refine ⟨⟨4000, 0, 1, 0x7FF0, 0x5000, wide "\\sensor.dll"⟩, by decide, ?_⟩
  exact run_apcs_target_ntdll asciiUpcase everyProcess _ (by decide) _ (by decide)

/-- The executable is reported before ntdll: its base is the one `LdrLoadDll` is added to. -/
theorem executableFirst_misses :
    ∃ apc ∈ (run (step asciiUpcase) (init everyProcess)
        (startWith [(0x4000, wide "\\evil.exe"), (0x7FF0, wide "\\ntdll.dll")])).apcs,
      ¬ IsNtdll asciiUpcase (run (step asciiUpcase) (init everyProcess)
        (startWith [(0x4000, wide "\\evil.exe"), (0x7FF0, wide "\\ntdll.dll")]))
        apc.pid apc.incarnation apc.ntdllBase := by
  refine ⟨⟨4000, 0, 1, 0x4000, 0x5000, wide "\\sensor.dll"⟩, by decide, ?_⟩
  unfold IsNtdll
  decide

end SecOutfall.Injection
