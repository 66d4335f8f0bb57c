import Mathlib.Data.List.Nodup
import SecOutfall.Foundations.AssocList
import SecOutfall.Injection.Handshake

/-! Lookups and updates of the injection ledger, and what the entry updates of the callbacks keep.

At most one entry has a given pid, so the entry `FindLedgerEntryLocked` returns is the only one a
callback can touch. -/
namespace SecOutfall.Injection
set_option autoImplicit false

/-! ## Lookup and update -/

theorem findEntry_mem {ledger : List InjectionEntry} {pid : UInt32} {entry : InjectionEntry}
    (h : findEntry ledger pid = some entry) : entry ∈ ledger ∧ entry.pid = pid :=
  ⟨List.mem_of_find?_eq_some h, by simpa using List.find?_some h⟩

theorem findEntry_eq_none {ledger : List InjectionEntry} {pid : UInt32}
    (h : findEntry ledger pid = none) : pid ∉ ledger.map InjectionEntry.pid := by
  intro hmem
  obtain ⟨entry, he, rfl⟩ := List.mem_map.mp hmem
  simpa using List.find?_eq_none.mp h entry he

theorem updateEntry_map {α : Type*} {g : InjectionEntry → α} {f : InjectionEntry → InjectionEntry}
    (hg : ∀ e, g (f e) = g e) (pid : UInt32) (ledger : List InjectionEntry) :
    (updateEntry pid f ledger).map g = ledger.map g := by
  induction ledger with
  | nil => rfl
  | cons entry rest ih =>
    unfold updateEntry
    split
    · simp [hg]
    · simp [ih]

theorem updateEntry_pids {f : InjectionEntry → InjectionEntry} (hf : ∀ e, (f e).pid = e.pid)
    (pid : UInt32) (ledger : List InjectionEntry) :
    (updateEntry pid f ledger).map InjectionEntry.pid = ledger.map InjectionEntry.pid :=
  updateEntry_map hf pid ledger

/-- The entry that is found, between those before it and those behind it: what an update and an unlink do. -/
theorem findEntry_split {ledger : List InjectionEntry} {pid : UInt32} {entry : InjectionEntry}
    (h : findEntry ledger pid = some entry) : ∃ before after, ledger = before ++ entry :: after ∧
      (∀ f, updateEntry pid f ledger = before ++ f entry :: after) ∧ unlinkEntry ledger pid = before ++ after := by
  induction ledger with
  | nil => exact absurd h (by simp [findEntry])
  | cons head rest ih =>
    by_cases hpid : head.pid == pid
    · obtain rfl : head = entry := by simpa [findEntry, hpid] using h
      exact ⟨[], rest, rfl, fun f => if_pos hpid, by rw [unlinkEntry, List.eraseP_cons, cond_eq_ite, if_pos hpid]; rfl⟩
    · obtain ⟨before, after, hrest, hupdate, hunlink⟩ := ih (by simpa [findEntry, hpid] using h)
      refine ⟨head :: before, after, congrArg _ hrest, fun f => ?_, ?_⟩
      · rw [updateEntry, if_neg hpid, hupdate f, List.cons_append]
      · rw [unlinkEntry, List.eraseP_cons, cond_eq_ite, if_neg hpid]
        exact congrArg _ hunlink

theorem updateEntry_of_none {f : InjectionEntry → InjectionEntry} {pid : UInt32}
    {ledger : List InjectionEntry} (h : findEntry ledger pid = none) :
    updateEntry pid f ledger = ledger := by
  induction ledger with
  | nil => rfl
  | cons head rest ih =>
    simp only [findEntry, List.find?_eq_none, List.forall_mem_cons] at h
    rw [updateEntry, if_neg h.1, ih (List.find?_eq_none.mpr h.2)]

theorem mem_updateEntry {f : InjectionEntry → InjectionEntry} {pid : UInt32}
    {ledger : List InjectionEntry} {entry : InjectionEntry} (h : entry ∈ updateEntry pid f ledger) :
    entry ∈ ledger ∨ ∃ old, findEntry ledger pid = some old ∧ entry = f old := by
  cases hfind : findEntry ledger pid with
  | none => exact .inl (updateEntry_of_none hfind ▸ h)
  | some old =>
    obtain ⟨before, after, hledger, hupdate, -⟩ := findEntry_split hfind
    rw [hupdate, List.mem_append, List.mem_cons] at h
    rw [hledger, List.mem_append, List.mem_cons]
    obtain hbefore | rfl | hafter := h
    · exact .inl (.inl hbefore)
    · exact .inr ⟨old, rfl, rfl⟩
    · exact .inl (.inr (.inr hafter))

theorem mem_unlinkEntry {ledger : List InjectionEntry} {pid : UInt32} {entry : InjectionEntry}
    (hdistinct : (ledger.map InjectionEntry.pid).Nodup) (h : entry ∈ unlinkEntry ledger pid) :
    entry ∈ ledger ∧ entry.pid ≠ pid :=
  (AssocList.mem_eraseP_iff hdistinct).mp h

theorem mem_unlinkEntry_of_ne {ledger : List InjectionEntry} {pid : UInt32} {entry : InjectionEntry}
    (hmem : entry ∈ ledger) (h : entry.pid ≠ pid) : entry ∈ unlinkEntry ledger pid :=
  (List.mem_eraseP_of_neg (by simpa using h)).mpr hmem

theorem findEntry_unlinkEntry {ledger : List InjectionEntry} (hdistinct : (ledger.map InjectionEntry.pid).Nodup)
    (pid other : UInt32) :
    findEntry (unlinkEntry ledger pid) other = if other = pid then none else findEntry ledger other :=
  AssocList.find?_eraseP hdistinct pid other

theorem findEntry_of_mem {ledger : List InjectionEntry} {entry : InjectionEntry}
    (hdistinct : (ledger.map InjectionEntry.pid).Nodup) (h : entry ∈ ledger) :
    findEntry ledger entry.pid = some entry := by
  cases hfind : findEntry ledger entry.pid with
  | none => exact absurd (List.mem_map_of_mem h) (findEntry_eq_none hfind)
  | some found =>
    obtain ⟨hmem, hpid⟩ := findEntry_mem hfind
    exact congrArg some (List.inj_on_of_nodup_map hdistinct hmem h hpid)

theorem updateEntry_updateEntry {f g : InjectionEntry → InjectionEntry} (hf : ∀ e, (f e).pid = e.pid)
    (pid : UInt32) (ledger : List InjectionEntry) :
    updateEntry pid g (updateEntry pid f ledger) = updateEntry pid (fun e => g (f e)) ledger := by
  induction ledger with
  | nil => rfl
  | cons head rest ih =>
    by_cases hpid : head.pid == pid
    · simp [updateEntry, hpid, hf]
    · simp [updateEntry, hpid, ih]

theorem mem_updateEntry_self {f : InjectionEntry → InjectionEntry} {pid : UInt32}
    {ledger : List InjectionEntry} {entry : InjectionEntry} (h : findEntry ledger pid = some entry) :
    f entry ∈ updateEntry pid f ledger := by
  obtain ⟨before, after, -, hupdate, -⟩ := findEntry_split h
  rw [hupdate]
  exact List.mem_append_right _ List.mem_cons_self

theorem mem_updateEntry_of_ne {f : InjectionEntry → InjectionEntry} {pid : UInt32}
    {ledger : List InjectionEntry} {entry : InjectionEntry} (hmem : entry ∈ ledger)
    (h : findEntry ledger pid ≠ some entry) : entry ∈ updateEntry pid f ledger := by
  cases hfind : findEntry ledger pid with
  | none => rwa [updateEntry_of_none hfind]
  | some old =>
    obtain ⟨before, after, hledger, hupdate, -⟩ := findEntry_split hfind
    rw [hledger, List.mem_append, List.mem_cons] at hmem
    rw [hupdate, List.mem_append, List.mem_cons]
    obtain hbefore | rfl | hafter := hmem
    · exact .inl hbefore
    · exact absurd hfind h
    · exact .inr (.inr hafter)

theorem findEntry_updateEntry {f : InjectionEntry → InjectionEntry} (hf : ∀ e, (f e).pid = e.pid)
    (pid other : UInt32) (ledger : List InjectionEntry) :
    findEntry (updateEntry pid f ledger) other =
      if other = pid then (findEntry ledger pid).map f else findEntry ledger other := by
  induction ledger with
  | nil => simp [findEntry, updateEntry]
  | cons head rest ih =>
    unfold updateEntry
    by_cases hpid : head.pid = pid
    · by_cases hother : other = pid
      · simp [findEntry, hpid, hf, hother]
      · have hne : ¬ pid = other := fun h => hother h.symm
        simp [findEntry, hpid, hf, hother, hne]
    · rw [if_neg (by simpa using hpid)]
      by_cases hhead : head.pid = other
      · have hne : ¬ other = pid := fun h => hpid (hhead.trans h)
        simp [findEntry, hhead, hne]
      · simpa [findEntry, hpid, hhead] using ih

theorem mem_writeCursor (va : ℕ) (drained : UInt64) {ledger : List InjectionEntry}
    {entry : InjectionEntry} (h : entry ∈ ledger) :
    ∃ index, { entry with ringDrainIndex := index } ∈ Sensors.writeCursor va drained ledger := by
  induction ledger with
  | nil => exact absurd h List.not_mem_nil
  | cons head rest ih =>
    unfold Sensors.writeCursor
    by_cases hva : head.ringKernelVa == some va
    · rw [if_pos hva]
      rcases List.mem_cons.mp h with rfl | hrest
      · exact ⟨drained, List.mem_cons_self⟩
      · exact ⟨entry.ringDrainIndex, List.mem_cons_of_mem _ hrest⟩
    · rw [if_neg hva]
      rcases List.mem_cons.mp h with rfl | hrest
      · exact ⟨entry.ringDrainIndex, List.mem_cons_self⟩
      · obtain ⟨index, hmem⟩ := ih hrest
        exact ⟨index, List.mem_cons_of_mem head hmem⟩

/-! ## Entry updates -/

theorem seeThread_frame (thread : ℕ) (entry : InjectionEntry) :
    ∃ initialThread state, seeThread thread entry = { entry with initialThread, state } := by
  unfold seeThread casState
  split_ifs <;> exact ⟨_, _, rfl⟩

theorem seeImage_frame (base : UInt64) (entry : InjectionEntry) :
    ∃ ntdllBase state, seeImage base entry = { entry with ntdllBase, state } := by
  unfold seeImage casState
  split_ifs <;> exact ⟨_, _, rfl⟩

/-- An entry that has left the pending states is past both callbacks. -/
theorem seeThread_state (thread : ℕ) (entry : InjectionEntry) (h : entry.state ≠ .pendingThread) :
    (seeThread thread entry).state = entry.state := by
  unfold seeThread casState
  split_ifs <;> rfl

theorem seeImage_state (base : UInt64) (entry : InjectionEntry) (h : entry.state ≠ .pendingThread)
    (h' : entry.state ≠ .pendingNtdll) : (seeImage base entry).state = entry.state := by
  unfold seeImage casState
  split_ifs <;> rfl

theorem seeThread_pid (thread : ℕ) (entry : InjectionEntry) : (seeThread thread entry).pid = entry.pid := by
  unfold seeThread casState
  split_ifs <;> rfl

theorem seeThread_ntdllBase (thread : ℕ) (entry : InjectionEntry) :
    (seeThread thread entry).ntdllBase = entry.ntdllBase := by
  unfold seeThread casState
  split_ifs <;> rfl

theorem seeImage_pid (base : UInt64) (entry : InjectionEntry) : (seeImage base entry).pid = entry.pid := by
  unfold seeImage casState
  split_ifs <;> rfl

theorem seeImage_ntdllBase (base : UInt64) (entry : InjectionEntry) :
    (seeImage base entry).ntdllBase = if entry.ntdllBase = 0 then base else entry.ntdllBase := by
  unfold seeImage casState
  split_ifs <;> rfl

theorem onProcessCreate_ledger (upcase : UInt16 → UInt16) (s : Engine) (pid : UInt32) (createTime : UInt64)
    (name : Option (List UInt16)) (tick : UInt64) (allocated : Bool) :
    (onProcessCreate upcase s pid createTime name tick allocated).ledger = s.ledger ∨
      findEntry s.ledger pid = none ∧ ∃ nonce,
        (onProcessCreate upcase s pid createTime name tick allocated).ledger = s.ledger ++
          [⟨pid, createTime, nonce, none, 0, .pendingThread, none, none, 0, 0⟩] := by
  unfold onProcessCreate
  split
  · exact .inl rfl
  · simp only
    split
    · exact .inl rfl
    · split
      · exact .inl rfl
      · rename_i hnone
        exact .inr ⟨hnone, _, rfl⟩

/-- What `TryInjectLocked` does before it unlocks: nothing, or claim the entry for an attempt. -/
theorem tryInjectLocked_cases (s : Engine) (pid : UInt32) :
    tryInjectLocked s pid = s ∨
      ∃ entry thread path, findEntry s.ledger pid = some entry ∧ entry.state = .ready ∧
        tryInjectLocked s pid = { s with
          ledger := updateEntry pid (fun entry => { entry with state := .injected }) s.ledger
          attempts := s.attempts ++ [⟨pid, entry.createTime, s.exits pid, thread, entry.ntdllBase,
            snapshotPath path, none⟩] } := by
  unfold tryInjectLocked
  split
  · exact .inl rfl
  · rename_i entry hfind
    split
    · rename_i thread path _ _
      split
      · exact .inl rfl
      · split
        · exact .inl rfl
        · rename_i hready
          exact .inr ⟨entry, thread, path, hfind, not_not.mp hready, rfl⟩
    · exact .inl rfl

theorem runAttempt_cases (s : Engine) (k : ℕ) (lookupOk queueOk : Bool) :
    runAttempt s k lookupOk queueOk = s ∧ (∀ attempt ∈ s.attempts[k]?, attempt.result ≠ none) ∨
      ∃ attempt, s.attempts[k]? = some attempt ∧ attempt.result = none ∧
        ((∃ result ≠ .queued, runAttempt s k lookupOk queueOk =
            { s with attempts := s.attempts.set k { attempt with result := some result } }) ∨
          ∃ rva, runAttempt s k lookupOk queueOk = { s with
            attempts := s.attempts.set k { attempt with result := some .queued }
            apcs := s.apcs ++ [⟨attempt.pid, attempt.incarnation, attempt.thread, attempt.ntdllBase,
              rva, attempt.dllPath⟩] }) := by
  unfold runAttempt
  split
  · rename_i hnone
    exact .inl ⟨rfl, by simp [hnone]⟩
  · rename_i attempt hget
    split
    · rename_i hresult
      refine .inl ⟨rfl, ?_⟩
      intro found hfound hnone
      rw [Option.some.inj (hget.symm.trans hfound), hnone] at hresult
      exact absurd hresult (by simp)
    · rename_i hresult
      refine .inr ⟨attempt, hget, by simpa using hresult, ?_⟩
      split
      · exact .inl ⟨.lookupFailed, by decide, rfl⟩
      · split
        · exact .inl ⟨.queueFailed, by decide, rfl⟩
        · rename_i rva _
          split
          · exact .inl ⟨.queueFailed, by decide, rfl⟩
          · exact .inr ⟨rva, rfl⟩

/-- The state the fixup stores; a queued attempt stores none. -/
def Attempt.rollback (attempt : Attempt) : Option InjectionState :=
  match attempt.result with
  | some .lookupFailed => some .ready
  | some .queueFailed => some .failed
  | _ => none

/-- The ledger behind a fixup: its entry, if the pid has one, in the state it stores. -/
theorem fixup_ledger {s : Engine} {k : ℕ} {attempt : Attempt} (h : s.attempts[k]? = some attempt) :
    (fixup s k).ledger = match attempt.rollback with
      | none => s.ledger
      | some target => updateEntry attempt.pid (fun e => { e with state := target }) s.ledger := by
  have hnone : findEntry s.ledger attempt.pid = none → ∀ f : InjectionEntry → InjectionEntry,
      updateEntry attempt.pid f s.ledger = s.ledger := fun hfind f => updateEntry_of_none hfind
  cases hresult : attempt.result with
  | none => simp [fixup, h, hresult, Attempt.rollback]
  | some result =>
    cases hfind : findEntry s.ledger attempt.pid with
    | none =>
      cases result <;> simp [fixup, h, hresult, hfind, Attempt.rollback, hnone]
    | some entry =>
      cases result <;> simp [fixup, h, hresult, hfind, Attempt.rollback]

theorem fixup_rest {s : Engine} {k : ℕ} {attempt : Attempt} (h : s.attempts[k]? = some attempt)
    (hresult : attempt.result ≠ none) :
    (fixup s k).attempts = s.attempts.eraseIdx k ∧ (fixup s k).exits = s.exits ∧
      (fixup s k).apcs = s.apcs := by
  unfold fixup
  split
  · rename_i hnone
    simp [hnone] at h
  · rename_i found hfound
    obtain rfl := Option.some.inj (h.symm.trans hfound)
    split
    · rename_i hnone
      exact absurd hnone hresult
    · simp only
      split
      · exact ⟨rfl, rfl, rfl⟩
      · split <;> exact ⟨rfl, rfl, rfl⟩

theorem fixup_of_none {s : Engine} {k : ℕ} (h : s.attempts[k]? = none) : fixup s k = s := by
  simp [fixup, h]

/-- The fields of an entry that no callback of the engine assigns. -/
def InjectionEntry.frame (entry : InjectionEntry) :
    UInt32 × UInt64 × UInt64 × Option ℕ × Option ℕ :=
  (entry.pid, entry.createTime, entry.nonce, entry.ringSection, entry.ringKernelVa)

theorem seeThread_keeps (thread : ℕ) (entry : InjectionEntry) :
    (seeThread thread entry).frame = entry.frame := by
  obtain ⟨initialThread, state, heq⟩ := seeThread_frame thread entry
  rw [heq]
  rfl

theorem seeImage_keeps (base : UInt64) (entry : InjectionEntry) :
    (seeImage base entry).frame = entry.frame := by
  obtain ⟨ntdllBase, state, heq⟩ := seeImage_frame base entry
  rw [heq]
  rfl

section
variable {α : Type*} {g : InjectionEntry → α} (hg : ∀ entry state, g { entry with state := state } = g entry)
include hg

theorem tryInjectLocked_map (s : Engine) (pid : UInt32) :
    (tryInjectLocked s pid).ledger.map g = s.ledger.map g := by
  obtain heq | ⟨entry, thread, path, -, -, heq⟩ := tryInjectLocked_cases s pid
  · rw [heq]
  · rw [heq]
    apply updateEntry_map
    intro entry
    exact hg entry .injected

theorem fixup_map (s : Engine) (k : ℕ) : (fixup s k).ledger.map g = s.ledger.map g := by
  cases hget : s.attempts[k]? with
  | none => rw [fixup_of_none hget]
  | some attempt =>
    rw [fixup_ledger hget]
    cases attempt.rollback with
    | none => rfl
    | some target =>
      apply updateEntry_map
      intro entry
      exact hg entry target

end

theorem onFirstThread_frame (s : Engine) (pid : UInt32) (thread : ℕ) :
    (onFirstThread s pid thread).ledger.map InjectionEntry.frame = s.ledger.map InjectionEntry.frame := by
  unfold onFirstThread
  split
  · rfl
  · rw [tryInjectLocked_map fun _ _ => rfl]
    exact updateEntry_map (seeThread_keeps thread) pid s.ledger

theorem onImageLoad_frame (s : Engine) (pid : UInt32) (base : UInt64) (name : List UInt16) :
    (onImageLoad s pid base name).ledger.map InjectionEntry.frame = s.ledger.map InjectionEntry.frame := by
  unfold onImageLoad
  simp only
  split
  · rfl
  · rw [tryInjectLocked_map fun _ _ => rfl]
    exact updateEntry_map (seeImage_keeps base) pid s.ledger

theorem runAttempt_ledger (s : Engine) (k : ℕ) (lookupOk queueOk : Bool) :
    (runAttempt s k lookupOk queueOk).ledger = s.ledger := by
  obtain ⟨heq, -⟩ | ⟨attempt, -, -, ⟨result, -, heq⟩ | ⟨rva, heq⟩⟩ :=
    runAttempt_cases s k lookupOk queueOk
  · rw [heq]
  · rw [heq]
  · rw [heq]

/-- An engine step keeps the frames, links a fresh entry without a ring, or is an exit. -/
theorem step_frame (upcase : UInt16 → UInt16) (s : Engine) (op : Op) :
    (step upcase s op).ledger.map InjectionEntry.frame = s.ledger.map InjectionEntry.frame ∨
      (∃ pid createTime nonce, findEntry s.ledger pid = none ∧
        (step upcase s op).ledger = s.ledger ++
          [⟨pid, createTime, nonce, none, 0, .pendingThread, none, none, 0, 0⟩]) ∨
      ∃ pid, op = .processExit pid := by
  cases op with
  | setPolicy policy => exact .inl rfl
  | processCreate pid createTime name tick allocated =>
    obtain heq | ⟨hnone, nonce, heq⟩ :=
      onProcessCreate_ledger upcase s pid createTime name tick allocated
    · exact .inl (by rw [step, heq])
    · exact .inr (.inl ⟨pid, createTime, nonce, hnone, heq⟩)
  | firstThread pid thread => exact .inl (onFirstThread_frame s pid thread)
  | resolve name resolved =>
    simp only [step, resolveLdrLoadDll]
    split
    · exact .inl rfl
    · exact .inl rfl
  | imageLoad pid base name => exact .inl (onImageLoad_frame s pid base name)
  | attempt k lookupOk queueOk => exact .inl (by rw [step, runAttempt_ledger])
  | fixup k => exact .inl (fixup_map (fun _ _ => rfl) s k)
  | processExit pid => exact .inr (.inr ⟨pid, rfl⟩)

def Distinct (ledger : List InjectionEntry) : Prop := (ledger.map InjectionEntry.pid).Nodup

theorem distinct_of_frame {ledger ledger' : List InjectionEntry}
    (h : ledger'.map InjectionEntry.frame = ledger.map InjectionEntry.frame) (hd : Distinct ledger) :
    Distinct ledger' := by
  have hpids : ledger'.map InjectionEntry.pid = ledger.map InjectionEntry.pid := by
    simpa [Function.comp_def, InjectionEntry.frame] using congrArg (List.map Prod.fst) h
  rw [Distinct, hpids]
  exact hd

theorem distinct_step (upcase : UInt16 → UInt16) {s : Engine} (hd : Distinct s.ledger) (op : Op) :
    Distinct (step upcase s op).ledger := by
  obtain heq | ⟨pid, createTime, nonce, hnone, heq⟩ | ⟨pid, rfl⟩ := step_frame upcase s op
  · exact distinct_of_frame heq hd
  · rw [heq, Distinct, List.map_append, List.map_singleton, List.nodup_append_comm,
      List.singleton_append]
    exact List.nodup_cons.mpr ⟨findEntry_eq_none hnone, hd⟩
  · exact hd.sublist (List.eraseP_sublist.map InjectionEntry.pid)

/-! ## The handshake -/

namespace Sensors

@[simp] theorem releaseFresh_engine (s : Sensors) (c : Challenge) : (s.releaseFresh c).engine = s.engine := by
  unfold releaseFresh
  split <;> rfl

@[simp] theorem abandon_engine (s : Sensors) (k : ℕ) (c : Challenge) : (s.abandon k c).engine = s.engine := by
  simp [abandon, reject, returnFalse]

@[simp] theorem duplicate_engine (s : Sensors) (k : ℕ) (c : Challenge) (openOk dupOk : Bool) :
    (s.duplicate k c openOk dupOk).engine = s.engine := by
  unfold duplicate
  split_ifs <;> simp

theorem passOne_engine (s : Sensors) (pid : UInt32) : (s.passOne pid).engine = s.engine := by
  unfold passOne
  split
  · rfl
  · split <;> rfl

theorem passTwo_engine (s : Sensors) (k : ℕ) (createOk mapOk openOk dupOk : Bool) :
    ∃ allocFailures, (s.passTwo k createOk mapOk openOk dupOk).engine =
      { s.engine with allocFailures } := by
  unfold passTwo
  split
  · exact ⟨_, rfl⟩
  · split_ifs <;> simp only [duplicate_engine] <;> exact ⟨_, rfl⟩

@[simp] theorem releaseFresh_replies (s : Sensors) (c : Challenge) :
    (s.releaseFresh c).replies = s.replies := by
  unfold releaseFresh
  split <;> rfl

@[simp] theorem releaseFresh_registrations (s : Sensors) (c : Challenge) :
    (s.releaseFresh c).registrations = s.registrations := by
  unfold releaseFresh
  split <;> rfl

@[simp] theorem releaseFresh_challenges (s : Sensors) (c : Challenge) :
    (s.releaseFresh c).challenges = s.challenges := by
  unfold releaseFresh
  split <;> rfl

@[simp] theorem abandon_registrations (s : Sensors) (k : ℕ) (c : Challenge) :
    (s.abandon k c).registrations = s.registrations := by
  simp [abandon, reject, returnFalse]

theorem passTwo_registrations (s : Sensors) (k : ℕ) (createOk mapOk openOk dupOk : Bool) :
    (s.passTwo k createOk mapOk openOk dupOk).registrations = s.registrations := by
  unfold passTwo
  split
  · rfl
  · split_ifs <;> simp [returnFalse, countAllocFailure, duplicate, createSection] <;>
      split_ifs <;> simp

theorem epilogue_registrations (s : Sensors) (k : ℕ) (openOk dupOk : Bool) :
    (s.epilogue k openOk dupOk).registrations = s.registrations := by
  unfold epilogue
  split
  · rfl
  · split
    · simp
    · split_ifs <;> rfl
    · rfl
    · rfl

theorem passTwo_ledger (s : Sensors) (k : ℕ) (createOk mapOk openOk dupOk : Bool) :
    (s.passTwo k createOk mapOk openOk dupOk).engine.ledger = s.engine.ledger := by
  obtain ⟨allocFailures, heq⟩ := s.passTwo_engine k createOk mapOk openOk dupOk
  rw [heq]

theorem epilogue_engine (s : Sensors) (k : ℕ) (openOk dupOk : Bool) :
    (s.epilogue k openOk dupOk).engine = s.engine := by
  unfold epilogue
  split
  · rfl
  · split
    · simp
    · split_ifs <;> rfl
    · rfl
    · rfl

theorem destroyLedgerEntry_engine (s : Sensors) (j : ℕ) : (s.destroyLedgerEntry j).engine = s.engine := by
  unfold destroyLedgerEntry
  split <;> rfl

theorem passOne_cases (s : Sensors) (pid : UInt32) :
    s.passOne pid = s.reject pid ∨
      ∃ entry, findEntry s.engine.ledger pid = some entry ∧ entry.state = .injected ∧
        s.passOne pid = { s with challenges := s.challenges ++
          [⟨pid, entry.nonce, entry.createTime, entry.ringKernelVa.isSome, entry.ringSection, false,
            none, none, .passTwo⟩] } := by
  unfold passOne
  split
  · exact .inl rfl
  · rename_i entry hfind
    split
    · exact .inl rfl
    · rename_i hstate
      exact .inr ⟨entry, hfind, not_not.mp hstate, rfl⟩

theorem passThree_rest (s : Sensors) (k : ℕ) :
    (s.passThree k).engine = { s.engine with ledger := (s.passThree k).engine.ledger } ∧
      (s.passThree k).replies = s.replies ∧ (s.passThree k).registrations = s.registrations := by
  unfold passThree
  split
  · exact ⟨rfl, rfl, rfl⟩
  · simp only
    split
    · exact ⟨rfl, rfl, rfl⟩
    · split
      · exact ⟨rfl, rfl, rfl⟩
      · split_ifs <;> exact ⟨rfl, rfl, rfl⟩

/-- Pass 3 leaves the ledger alone or gives its fresh ring to the entry it gated on. -/
theorem passThree_ledger (s : Sensors) (k : ℕ) :
    (s.passThree k).engine.ledger = s.engine.ledger ∨
      ∃ c ∈ s.challenges[k]?, ∃ entry, findEntry s.engine.ledger c.pid = some entry ∧
        entry.ringKernelVa = none ∧
        (s.passThree k).engine.ledger = updateEntry c.pid (fun e => { e with
          ringSection := c.fromSection, ringKernelVa := c.freshVa, ringDrainIndex := 0 })
          s.engine.ledger := by
  unfold passThree
  split
  · exact .inl rfl
  · rename_i c hget
    split
    · exact .inl rfl
    · simp only
      split
      · exact .inl rfl
      · rename_i entry hfind
        split_ifs with _ hring
        · exact .inl rfl
        · exact .inl rfl
        · simp only [Bool.or_eq_true, not_or, Bool.not_eq_true, Option.isSome_eq_false_iff,
            Option.isNone_iff_eq_none] at hring
          exact .inr ⟨c, hget, entry, hfind, hring.2, rfl⟩
        · exact .inl rfl

theorem register_cases (s : Sensors) (pid : UInt32) (nonce : UInt64) (sensorVersion : UInt32) :
    s.register pid nonce sensorVersion = { s with sensorsRejected := s.sensorsRejected + 1 } ∨
      ∃ entry, findEntry s.engine.ledger pid = some entry ∧ entry.state = .injected ∧
        entry.nonce = nonce ∧
        s.register pid nonce sensorVersion = setLedger { s with
            sensorsRegistered := s.sensorsRegistered + 1
            registrations := s.registrations ++ [⟨pid, s.engine.exits pid, nonce⟩] }
          (updateEntry pid (fun e => { e with state := .registered, sensorVersion })
            s.engine.ledger) := by
  unfold register
  split
  · exact .inl rfl
  · rename_i entry hfind
    split
    · exact .inl rfl
    · rename_i hgate
      rw [not_or, not_not, not_not] at hgate
      exact .inr ⟨entry, hfind, hgate.1, hgate.2, rfl⟩

theorem writeCursor_frame (va : ℕ) (drained : UInt64) (ledger : List InjectionEntry) :
    (writeCursor va drained ledger).map InjectionEntry.frame = ledger.map InjectionEntry.frame := by
  induction ledger with
  | nil => rfl
  | cons entry rest ih =>
    unfold writeCursor
    split
    · rfl
    · rw [List.map_cons, List.map_cons, ih]

theorem distinct_step (upcase : UInt16 → UInt16) {s : Sensors} (hd : Distinct s.engine.ledger)
    (region : Region) : Distinct (s.step upcase region).engine.ledger := by
  cases region with
  | engine op => exact Injection.distinct_step upcase hd op
  | destroy j => rwa [step, destroyLedgerEntry_engine]
  | passOne pid => rwa [step, passOne_engine]
  | passTwo k createOk mapOk openOk dupOk => rwa [step, passTwo_ledger]
  | passThree k =>
    obtain heq | ⟨c, -, -, -, -, heq⟩ := s.passThree_ledger k
    · rwa [step, heq]
    · rw [step, heq, Distinct, updateEntry_pids]
      · exact hd
      · intro _
        rfl
  | epilogue k openOk dupOk => rwa [step, epilogue_engine]
  | register pid nonce sensorVersion =>
    obtain heq | ⟨found, -, -, -, heq⟩ := s.register_cases pid nonce sensorVersion
    · rwa [step, heq]
    · rw [step, heq, Distinct]
      simp only [setLedger]
      rw [updateEntry_pids]
      · exact hd
      · intro _
        rfl
  | writeBack va drained => exact distinct_of_frame (writeCursor_frame va drained _) hd

end Sensors

end SecOutfall.Injection
