import SecOutfall.Injection.NtdllBase

/-! Incarnations of a pid under interleaved attempts.

The fixup behind an unlocked attempt finds its entry by pid alone. When the process has exited and
the pid has a new entry, or when the sensor has registered meanwhile, a failed attempt overwrites
a state that is not its own. Runs in which no fixup meets such an entry are exactly the runs that
keep incarnations apart and registered sensors registered. -/
namespace SecOutfall.Injection
open Runs
set_option autoImplicit false

variable (upcase : UInt16 → UInt16)

/-- The entry is still in the ledger, in the state it had. -/
def Persists (ledger : List InjectionEntry) (entry : InjectionEntry) : Prop :=
  ∃ now ∈ ledger, now.pid = entry.pid ∧ now.createTime = entry.createTime ∧
    now.nonce = entry.nonce ∧ now.state = entry.state

/-- A failed attempt finds no entry, its own before registration, or one already in the state. -/
def FixesOwn (s : Sensors) : Region → Prop
  | .engine (.fixup k) => ∀ attempt ∈ s.engine.attempts[k]?, ∀ target ∈ attempt.rollback,
      ∀ entry ∈ findEntry s.engine.ledger attempt.pid,
        entry.createTime = attempt.createTime ∧ entry.state ≠ .registered ∨ entry.state = target
  | _ => True

/-- The outcome of an attempt leaves the entries of other incarnations alone. -/
def Isolates (s : Sensors) (region : Region) : Prop :=
  match region with
  | .engine (.fixup k) => ∀ attempt ∈ s.engine.attempts[k]?, ∀ entry ∈ s.engine.ledger,
      entry.pid ≠ attempt.pid ∨ entry.createTime ≠ attempt.createTime →
        Persists (s.step upcase region).engine.ledger entry
  | _ => True

/-! ## Persistence -/

theorem Persists.of_mem {ledger : List InjectionEntry} {entry : InjectionEntry} (h : entry ∈ ledger) :
    Persists ledger entry := ⟨entry, h, rfl, rfl, rfl, rfl⟩

theorem Persists.trans {ledger ledger' : List InjectionEntry} {entry : InjectionEntry}
    (h : Persists ledger entry)
    (hstep : ∀ now ∈ ledger, now.pid = entry.pid → now.state = entry.state → Persists ledger' now) :
    Persists ledger' entry := by
  obtain ⟨now, hmem, hpid, htime, hnonce, hstate⟩ := h
  obtain ⟨later, hlater, hpid', htime', hnonce', hstate'⟩ := hstep now hmem hpid hstate
  exact ⟨later, hlater, hpid'.trans hpid, htime'.trans htime, hnonce'.trans hnonce,
    hstate'.trans hstate⟩

theorem Persists.update {ledger : List InjectionEntry} {entry : InjectionEntry}
    {f : InjectionEntry → InjectionEntry} {pid : UInt32} (h : entry ∈ ledger)
    (hf : findEntry ledger pid = some entry → (f entry).pid = entry.pid ∧
      (f entry).createTime = entry.createTime ∧ (f entry).nonce = entry.nonce ∧
      (f entry).state = entry.state) :
    Persists (updateEntry pid f ledger) entry := by
  by_cases hfind : findEntry ledger pid = some entry
  · exact ⟨f entry, mem_updateEntry_self hfind, hf hfind⟩
  · exact .of_mem (mem_updateEntry_of_ne h hfind)

section
variable {upcase} {s : Engine} {entry : InjectionEntry}

theorem persists_tryInjectLocked (h : entry ∈ s.ledger) (hstate : entry.state ≠ .ready)
    (pid : UInt32) : Persists (tryInjectLocked s pid).ledger entry := by
  obtain heq | ⟨found, thread, path, hfind, hready, heq⟩ := tryInjectLocked_cases s pid
  · rw [heq]
    exact .of_mem h
  · rw [heq]
    apply Persists.update h
    intro hentry
    rw [hfind] at hentry
    exact absurd (Option.some.inj hentry ▸ hready) hstate

theorem persists_onFirstThread (h : entry ∈ s.ledger) (hstate : entry.state = .registered)
    (pid : UInt32) (thread : ℕ) : Persists (onFirstThread s pid thread).ledger entry := by
  unfold onFirstThread
  split
  · exact .of_mem h
  · have hseen : Persists (updateEntry pid (seeThread thread) s.ledger) entry := by
      apply Persists.update h
      intro _
      have hkeep := seeThread_state thread entry (by simp [hstate])
      obtain ⟨initialThread, state, heq⟩ := seeThread_frame thread entry
      exact ⟨by rw [heq], by rw [heq], by rw [heq], hkeep⟩
    apply hseen.trans
    intro now hmem _ hnow
    exact persists_tryInjectLocked hmem (by simp [hnow, hstate]) pid

theorem persists_onImageLoad (h : entry ∈ s.ledger) (hstate : entry.state = .registered)
    (pid : UInt32) (base : UInt64) (name : List UInt16) :
    Persists (onImageLoad s pid base name).ledger entry := by
  unfold onImageLoad
  simp only
  split
  · exact .of_mem h
  · have hseen : Persists (updateEntry pid (seeImage base) s.ledger) entry := by
      apply Persists.update h
      intro _
      have hkeep := seeImage_state base entry (by simp [hstate]) (by simp [hstate])
      obtain ⟨ntdllBase, state, heq⟩ := seeImage_frame base entry
      exact ⟨by rw [heq], by rw [heq], by rw [heq], hkeep⟩
    apply hseen.trans
    intro now hmem _ hnow
    exact persists_tryInjectLocked hmem (by simp [hnow, hstate]) pid

theorem persists_step (h : entry ∈ s.ledger) (hstate : entry.state = .registered) {op : Op}
    (hexit : op ≠ .processExit entry.pid)
    (hfix : ∀ k, op = .fixup k → ∀ attempt ∈ s.attempts[k]?, ∀ target ∈ attempt.rollback,
      ∀ found ∈ findEntry s.ledger attempt.pid,
        found.createTime = attempt.createTime ∧ found.state ≠ .registered ∨ found.state = target) :
    Persists (step upcase s op).ledger entry := by
  cases op with
  | setPolicy policy => exact .of_mem h
  | processCreate pid createTime name tick allocated =>
    simp only [step]
    obtain heq | ⟨-, nonce, heq⟩ := onProcessCreate_ledger upcase s pid createTime name tick allocated
    · rw [heq]
      exact .of_mem h
    · rw [heq]
      exact .of_mem (List.mem_append_left _ h)
  | firstThread pid thread => exact persists_onFirstThread h hstate pid thread
  | resolve name resolved =>
    simp only [step, resolveLdrLoadDll]
    split
    · exact .of_mem h
    · exact .of_mem h
  | imageLoad pid base name => exact persists_onImageLoad h hstate pid base name
  | attempt k lookupOk queueOk =>
    simp only [step]
    rw [runAttempt_ledger]
    exact .of_mem h
  | fixup k =>
    simp only [step]
    cases hget : s.attempts[k]? with
    | none =>
      rw [fixup_of_none hget]
      exact .of_mem h
    | some attempt =>
      rw [fixup_ledger hget]
      cases hroll : attempt.rollback with
      | none => exact .of_mem h
      | some target =>
        apply Persists.update h
        intro hfind
        obtain ⟨-, hne⟩ | heq := hfix k rfl attempt hget target hroll entry hfind
        · exact absurd hstate hne
        · exact ⟨rfl, rfl, rfl, heq.symm⟩
  | processExit pid =>
    apply Persists.of_mem (mem_unlinkEntry_of_ne h _)
    rintro rfl
    exact hexit rfl

end

/-! ## Steps -/

section
variable {upcase} {s : Sensors} {region : Region}

theorem registered_persists {entry : InjectionEntry} (h : entry ∈ s.engine.ledger)
    (hstate : entry.state = .registered) (hexit : region ≠ .engine (.processExit entry.pid))
    (hfix : FixesOwn s region) : Persists (s.step upcase region).engine.ledger entry := by
  cases region with
  | engine op =>
    apply persists_step h hstate
    · intro heq
      exact hexit (heq ▸ rfl)
    · rintro k rfl
      exact hfix
  | destroy j => exact .of_mem (by rw [Sensors.step, Sensors.destroyLedgerEntry_engine]; exact h)
  | passOne pid => exact .of_mem (by rw [Sensors.step, Sensors.passOne_engine]; exact h)
  | passTwo k createOk mapOk openOk dupOk =>
    exact .of_mem (by rw [Sensors.step, Sensors.passTwo_ledger]; exact h)
  | passThree k =>
    obtain heq | ⟨c, -, -, -, -, heq⟩ := s.passThree_ledger k
    · exact .of_mem (by rw [Sensors.step, heq]; exact h)
    · rw [Sensors.step, heq]
      exact Persists.update h fun _ => ⟨rfl, rfl, rfl, rfl⟩
  | epilogue k openOk dupOk => exact .of_mem (by rw [Sensors.step, Sensors.epilogue_engine]; exact h)
  | register pid nonce sensorVersion =>
    obtain heq | ⟨found, hfind, hinjected, -, heq⟩ := s.register_cases pid nonce sensorVersion
    · exact .of_mem (by rw [Sensors.step, heq]; exact h)
    · rw [Sensors.step, heq]
      exact Persists.update h fun _ => ⟨rfl, rfl, rfl, hstate.symm⟩
  | writeBack va drained =>
    obtain ⟨index, hmem⟩ := mem_writeCursor va drained h
    exact ⟨_, hmem, rfl, rfl, rfl, rfl⟩

theorem FixesOwn.isolates (hfix : FixesOwn s region) : Isolates upcase s region := by
  unfold Isolates
  split
  · rename_i k
    intro attempt hget entry hmem hother
    simp only [Sensors.step, step]
    rw [fixup_ledger hget]
    cases hroll : attempt.rollback with
    | none => exact .of_mem hmem
    | some target =>
      apply Persists.update hmem
      intro hfind
      have hpid := (findEntry_mem hfind).2
      obtain ⟨hown, -⟩ | heq := hfix attempt hget target hroll entry hfind
      · rcases hother with hne | hne
        · exact absurd hpid hne
        · exact absurd hown hne
      · exact ⟨rfl, rfl, rfl, heq.symm⟩
  · trivial

/-- With distinct pids an overwritten state is lost: nothing else in the ledger stands for it. -/
theorem not_persists_update {ledger : List InjectionEntry} (hd : Distinct ledger)
    {pid : UInt32} {entry : InjectionEntry} (hfind : findEntry ledger pid = some entry)
    {target : InjectionState} (hne : entry.state ≠ target) :
    ¬ Persists (updateEntry pid (fun e => { e with state := target }) ledger) entry := by
  rintro ⟨now, hmem, hpid, -, -, hstate⟩
  have hd' : Distinct (updateEntry pid (fun e => { e with state := target }) ledger) := by
    rw [Distinct, updateEntry_pids]
    · exact hd
    · intro _
      rfl
  have hnew := mem_updateEntry_self (f := fun e => { e with state := target }) hfind
  have hsame := List.inj_on_of_nodup_map hd' hmem hnew hpid
  rw [hsame] at hstate
  exact hne hstate.symm

theorem fixesOwn_of_isolates (hd : Distinct s.engine.ledger) (hiso : Isolates upcase s region)
    (hreg : ∀ entry ∈ s.engine.ledger, entry.state = .registered →
      region ≠ .engine (.processExit entry.pid) →
        Persists (s.step upcase region).engine.ledger entry) : FixesOwn s region := by
  unfold FixesOwn
  split
  · rename_i k
    intro attempt hget target hroll entry hfind
    by_contra hbad
    rw [not_or] at hbad
    have hmem := (findEntry_mem hfind).1
    have hlost : ¬ Persists (s.step upcase (.engine (.fixup k))).engine.ledger entry := by
      simp only [Sensors.step, step]
      rw [fixup_ledger hget, hroll]
      exact not_persists_update hd hfind hbad.2
    by_cases hown : entry.createTime = attempt.createTime
    · have hregistered : entry.state = .registered := by
        by_contra hne
        exact hbad.1 ⟨hown, hne⟩
      exact hlost (hreg entry hmem hregistered (by simp))
    · exact hlost (hiso attempt hget entry hmem (.inr hown))
  · trivial

end

/-! ## Runs -/

theorem run_registered_persists {s : Sensors} {regions : List Region}
    (h : Along (Sensors.step upcase) FixesOwn s regions) {entry : InjectionEntry}
    (hentry : Persists s.engine.ledger entry) (hstate : entry.state = .registered)
    (hexit : ∀ region ∈ regions, region ≠ .engine (.processExit entry.pid)) :
    Persists (run (Sensors.step upcase) s regions).engine.ledger entry := by
  induction regions generalizing s with
  | nil => exact hentry
  | cons region regions ih =>
    simp only [List.forall_mem_cons] at hexit
    rw [run_cons]
    apply ih h.2 _ hexit.2
    apply hentry.trans
    intro now hmem hpid hnow
    exact registered_persists hmem (hnow.trans hstate) (hpid ▸ hexit.1) h.1

/-- A run keeps incarnations apart and registered sensors registered exactly when every failed
attempt finds, at its fixup, its own entry not yet registered, or nothing to change. -/
theorem run_isolates_incarnations_iff (policy : Policy) (regions : List Region) :
    (Along (Sensors.step upcase) (Isolates upcase) (Sensors.init policy) regions ∧
      ∀ before during after, regions = before ++ during ++ after →
        ∀ entry ∈ (run (Sensors.step upcase) (Sensors.init policy) before).engine.ledger,
          entry.state = .registered →
          (∀ region ∈ during, region ≠ .engine (.processExit entry.pid)) →
          Persists (run (Sensors.step upcase) (Sensors.init policy)
            (before ++ during)).engine.ledger entry) ↔
    Along (Sensors.step upcase) FixesOwn (Sensors.init policy) regions := by
  have hdistinct : ∀ before, Distinct
      (run (Sensors.step upcase) (Sensors.init policy) before).engine.ledger :=
    run_invariant (I := fun s : Sensors => Distinct s.engine.ledger)
      (fun _ region hd => Sensors.distinct_step upcase hd region) List.nodup_nil
  constructor
  · rintro ⟨hiso, hreg⟩
    rw [along_iff_forall] at hiso ⊢
    rintro before region after rfl
    apply fixesOwn_of_isolates (hdistinct before) (hiso before region after rfl)
    intro entry hmem hstate hexit
    have hpersists := hreg before [region] after (by simp) entry hmem hstate (by simpa using hexit)
    rwa [run_append, run_cons, run_nil] at hpersists
  · intro h
    constructor
    · rw [along_iff_forall] at h ⊢
      intro before region after heq
      exact (h before region after heq).isolates
    · rintro before during after rfl entry hmem hstate hexit
      have hduring := (along_append.mp (along_append.mp h).1).2
      rw [run_append]
      exact run_registered_persists upcase hduring (.of_mem hmem) hstate hexit

/-! ## Runs that mix incarnations up -/

/-- The first thread claims an entry for an attempt that finds no process. The pid is reused by a
process that is registered by the time the attempt comes back. -/
def reusedPid : List Region :=
  [.engine (.resolve (Control.wide "\\ntdll.dll") (some 0x5000)),
   .engine (.processCreate 4000 7 none 0 true),
   .engine (.imageLoad 4000 0x7FF0 (Control.wide "\\ntdll.dll")),
   .engine (.firstThread 4000 1),
   .engine (.attempt 0 false false),
   .engine (.processExit 4000),
   .engine (.processCreate 4000 9 none 0 true),
   .engine (.imageLoad 4000 0x7FF0 (Control.wide "\\ntdll.dll")),
   .engine (.firstThread 4000 2),
   .passOne 4000, .passTwo 0 true true true true, .passThree 0, .epilogue 0 true true,
   .register 4000 (mintNonce 0 4000 2) 1]

theorem reusedPid_overwritten :
    ¬ (Along (Sensors.step asciiUpcase) (Isolates asciiUpcase) (Sensors.init everyProcess)
        (reusedPid ++ [.engine (.fixup 0)]) ∧
      ∀ before during after, reusedPid ++ [.engine (.fixup 0)] = before ++ during ++ after →
        ∀ entry ∈ (run (Sensors.step asciiUpcase) (Sensors.init everyProcess) before).engine.ledger,
          entry.state = .registered →
          (∀ region ∈ during, region ≠ .engine (.processExit entry.pid)) →
          Persists (run (Sensors.step asciiUpcase) (Sensors.init everyProcess)
            (before ++ during)).engine.ledger entry) := by
  rintro ⟨-, hreg⟩
  have hlost := hreg reusedPid [.engine (.fixup 0)] [] (by simp)
    ⟨4000, 9, mintNonce 0 4000 2, some 2, 0x7FF0, .registered, some 0, some 0, 0, 1⟩ (by decide) rfl
    (by simp)
  revert hlost
  unfold Persists
  decide

end SecOutfall.Injection
