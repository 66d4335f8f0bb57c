import SecOutfall.Injection.Ledger
import SecOutfall.Sensor.CallRoundTrip

/-! The gate of the handshake when callbacks, requests and drains run one after another.

An invocation is the sequence of its regions. What a ring holds when it is drained is arbitrary:
the hosting process writes it. -/
namespace SecOutfall.Injection
open Runs Sensor
set_option autoImplicit false

variable (upcase : UInt16 → UInt16)

/-! ## Invocations -/

/-- What a drain sees of an entry. -/
def InjectionEntry.ringEntry (entry : InjectionEntry) : RingEntry :=
  ⟨entry.state = .registered, entry.ringKernelVa, entry.ringDrainIndex, entry.pid, entry.createTime⟩

/-- An idle ring is skipped before its cursor would be written back; a fault writes none back. -/
def drainWriteBack (rings : ℕ → Memory) (ring : RingEntry) : Option Region :=
  match ring.ringKernelVa with
  | none => none
  | some va =>
    if (rings va).word32 SensorRingControl.state ≠ 1 then none
    else (drainRing (rings va) ring.ringDrainIndex).cursor.map (Region.writeBack va)

inductive Invocation where
  | setPolicy (policy : Policy)
  | processCreate (pid : UInt32) (createTime : UInt64) (imageFileName : Option (List UInt16))
      (tick : UInt64) (allocated : Bool)
  | firstThread (pid : UInt32) (thread : ℕ) (lookupOk queueOk : Bool)
  | imageLoad (pid : UInt32) (base : UInt64) (fullImageName : List UInt16) (resolved : Option UInt32)
      (lookupOk queueOk : Bool)
  | processExit (pid : UInt32)
  | challenge (pid : UInt32) (createOk mapOk openOk dupOk adoptOpenOk adoptDupOk : Bool)
  | register (pid : UInt32) (nonce : UInt64) (sensorVersion : UInt32)
  | drain (rings : ℕ → Memory)

def Invocation.regions (s : Sensors) : Invocation → List Region
  | .setPolicy policy => [.engine (.setPolicy policy)]
  | .processCreate pid createTime name tick allocated =>
    [.engine (.processCreate pid createTime name tick allocated)]
  | .firstThread pid thread lookupOk queueOk =>
    [.engine (.firstThread pid thread), .engine (.attempt 0 lookupOk queueOk), .engine (.fixup 0)]
  | .imageLoad pid base name resolved lookupOk queueOk =>
    [.engine (.resolve name resolved), .engine (.imageLoad pid base name),
      .engine (.attempt 0 lookupOk queueOk), .engine (.fixup 0)]
  | .processExit pid => [.engine (.processExit pid), .destroy 0]
  | .challenge pid createOk mapOk openOk dupOk adoptOpenOk adoptDupOk =>
    [.passOne pid, .passTwo 0 createOk mapOk openOk dupOk, .passThree 0,
      .epilogue 0 adoptOpenOk adoptDupOk]
  | .register pid nonce sensorVersion => [.register pid nonce sensorVersion]
  | .drain rings =>
    (snapshot (s.engine.ledger.map InjectionEntry.ringEntry)).filterMap (drainWriteBack rings)

def Sensors.invoke (s : Sensors) (invocation : Invocation) : Sensors :=
  run (Sensors.step upcase) s (invocation.regions s)

/-- The gate at one invocation. -/
def Gated (s : Sensors) (invocation : Invocation) : Prop :=
  match invocation with
  | .challenge pid .. => ∃ reply, (s.invoke upcase invocation).replies = s.replies ++ [reply] ∧
      (reply.ok = true → ∃ entry, findEntry s.engine.ledger pid = some entry ∧
        entry.state = .injected ∧ reply.challenge.nonce = entry.nonce)
  | .register pid nonce _ => (s.invoke upcase invocation).registrations = s.registrations ∨
      ∃ entry, findEntry s.engine.ledger pid = some entry ∧ entry.state = .injected ∧
        entry.nonce = nonce ∧ (s.invoke upcase invocation).registrations =
          s.registrations ++ [⟨pid, s.engine.exits pid, nonce⟩]
  | .drain rings => ∀ ring p, (ring, p) ∈ promotions (s.engine.ledger.map InjectionEntry.ringEntry) rings →
      ∃ entry ∈ s.engine.ledger, entry.state = .registered ∧
        ∀ stamp tail, ∃ record, Wire.decode (promotedRecord ring p stamp ++ tail) = .ok record ∧
          record.kind = .behaviorCall ∧ record.pid = entry.pid ∧
          record.processCreateTime = entry.createTime
  | _ => (s.invoke upcase invocation).replies = s.replies ∧
      (s.invoke upcase invocation).registrations = s.registrations

/-! ## Once per incarnation -/

/-- A queued APC or a registration of the current incarnation shows in the entry's state. -/
structure OnceEach (ledger : List InjectionEntry) (exits : UInt32 → ℕ) (apcs : List LoadApc)
    (registrations : List Registration) : Prop where
  distinct : Distinct ledger
  apcsOnce : (apcs.map fun apc => (apc.pid, apc.incarnation)).Nodup
  apcsPast : ∀ apc ∈ apcs, apc.incarnation ≤ exits apc.pid
  apcsShown : ∀ apc ∈ apcs, apc.incarnation = exits apc.pid →
    ∃ entry, findEntry ledger apc.pid = some entry ∧
      (entry.state = .injected ∨ entry.state = .registered)
  registrationsOnce : (registrations.map fun g => (g.pid, g.incarnation)).Nodup
  registrationsPast : ∀ g ∈ registrations, g.incarnation ≤ exits g.pid
  registrationsShown : ∀ g ∈ registrations, g.incarnation = exits g.pid →
    ∃ entry, findEntry ledger g.pid = some entry ∧ entry.state = .registered

section
variable {ledger : List InjectionEntry} {exits : UInt32 → ℕ} {apcs : List LoadApc}
  {registrations : List Registration}

/-- Ledgers in which every entry shows at least what it showed. -/
theorem OnceEach.of_shown (h : OnceEach ledger exits apcs registrations)
    {ledger' : List InjectionEntry} (hd : Distinct ledger')
    (hinjected : ∀ pid entry, findEntry ledger pid = some entry → entry.state = .injected →
      ∃ now, findEntry ledger' pid = some now ∧ (now.state = .injected ∨ now.state = .registered))
    (hregistered : ∀ pid entry, findEntry ledger pid = some entry → entry.state = .registered →
      ∃ now, findEntry ledger' pid = some now ∧ now.state = .registered) :
    OnceEach ledger' exits apcs registrations where
  distinct := hd
  apcsOnce := h.apcsOnce
  apcsPast := h.apcsPast
  apcsShown := by
    intro apc hapc hnow
    obtain ⟨entry, hfind, hstate | hstate⟩ := h.apcsShown apc hapc hnow
    · exact hinjected apc.pid entry hfind hstate
    · obtain ⟨now, hfind', hstate'⟩ := hregistered apc.pid entry hfind hstate
      exact ⟨now, hfind', .inr hstate'⟩
  registrationsOnce := h.registrationsOnce
  registrationsPast := h.registrationsPast
  registrationsShown := by
    intro g hg hnow
    obtain ⟨entry, hfind, hstate⟩ := h.registrationsShown g hg hnow
    exact hregistered g.pid entry hfind hstate

theorem OnceEach.update (h : OnceEach ledger exits apcs registrations) (pid : UInt32)
    {f : InjectionEntry → InjectionEntry} (hpid : ∀ e, (f e).pid = e.pid)
    (hinjected : ∀ entry, findEntry ledger pid = some entry → entry.state = .injected →
      (f entry).state = .injected ∨ (f entry).state = .registered)
    (hregistered : ∀ entry, findEntry ledger pid = some entry → entry.state = .registered →
      (f entry).state = .registered) :
    OnceEach (updateEntry pid f ledger) exits apcs registrations := by
  apply h.of_shown
  · rw [Distinct, updateEntry_pids hpid]
    exact h.distinct
  · intro other entry hfind hstate
    rw [findEntry_updateEntry hpid]
    by_cases hother : other = pid
    · subst hother
      exact ⟨f entry, by simp [hfind], hinjected entry hfind hstate⟩
    · exact ⟨entry, by simp [hother, hfind], .inl hstate⟩
  · intro other entry hfind hstate
    rw [findEntry_updateEntry hpid]
    by_cases hother : other = pid
    · subst hother
      exact ⟨f entry, by simp [hfind], hregistered entry hfind hstate⟩
    · exact ⟨entry, by simp [hother, hfind], hstate⟩

theorem OnceEach.append (h : OnceEach ledger exits apcs registrations) {entry : InjectionEntry}
    (hnone : findEntry ledger entry.pid = none) :
    OnceEach (ledger ++ [entry]) exits apcs registrations := by
  apply h.of_shown
  · rw [Distinct, List.map_append, List.map_singleton, List.nodup_append_comm, List.singleton_append]
    exact List.nodup_cons.mpr ⟨findEntry_eq_none hnone, h.distinct⟩
  · intro pid old hfind hstate
    exact ⟨old, by simp only [findEntry, List.find?_append] at hfind ⊢; simp [hfind], .inl hstate⟩
  · intro pid old hfind hstate
    exact ⟨old, by simp only [findEntry, List.find?_append] at hfind ⊢; simp [hfind], hstate⟩

theorem OnceEach.exit (h : OnceEach ledger exits apcs registrations) (pid : UInt32) :
    OnceEach (unlinkEntry ledger pid) (fun p => if p = pid then exits p + 1 else exits p) apcs
      registrations := by
  have hd : Distinct (unlinkEntry ledger pid) :=
    h.distinct.sublist (List.eraseP_sublist.map InjectionEntry.pid)
  have hkept : ∀ other entry, findEntry ledger other = some entry → other ≠ pid →
      findEntry (unlinkEntry ledger pid) other = some entry := by
    intro other entry hfind hne
    rw [findEntry_unlinkEntry h.distinct, if_neg hne, hfind]
  refine ⟨hd, h.apcsOnce, ?_, ?_, h.registrationsOnce, ?_, ?_⟩
  · intro apc hapc
    have hle := h.apcsPast apc hapc
    split <;> omega
  · intro apc hapc hnow
    have hle := h.apcsPast apc hapc
    split at hnow
    · omega
    · rename_i hne
      obtain ⟨entry, hfind, hstate⟩ := h.apcsShown apc hapc hnow
      exact ⟨entry, hkept apc.pid entry hfind hne, hstate⟩
  · intro g hg
    have hle := h.registrationsPast g hg
    split <;> omega
  · intro g hg hnow
    have hle := h.registrationsPast g hg
    split at hnow
    · omega
    · rename_i hne
      obtain ⟨entry, hfind, hstate⟩ := h.registrationsShown g hg hnow
      exact ⟨entry, hkept g.pid entry hfind hne, hstate⟩

/-- A further APC of the current incarnation, where none had shown yet. -/
theorem OnceEach.queue (h : OnceEach ledger exits apcs registrations) {apc : LoadApc}
    (hcurrent : apc.incarnation = exits apc.pid) {entry : InjectionEntry}
    (hfind : findEntry ledger apc.pid = some entry) (hstate : entry.state = .injected)
    (hnew : (apc.pid, apc.incarnation) ∉ apcs.map fun apc => (apc.pid, apc.incarnation)) :
    OnceEach ledger exits (apcs ++ [apc]) registrations := by
  refine ⟨h.distinct, ?_, ?_, ?_, h.registrationsOnce, h.registrationsPast, h.registrationsShown⟩
  · rw [List.map_append, List.map_singleton, ← List.concat_eq_append]
    exact List.Nodup.concat hnew h.apcsOnce
  · intro other hother
    rcases List.mem_append.mp hother with hold | hlast
    · exact h.apcsPast other hold
    · rw [List.mem_singleton.mp hlast]
      exact hcurrent.le
  · intro other hother hnow
    rcases List.mem_append.mp hother with hold | hlast
    · exact h.apcsShown other hold hnow
    · rw [List.mem_singleton.mp hlast]
      exact ⟨entry, hfind, .inl hstate⟩

theorem OnceEach.registered (h : OnceEach ledger exits apcs registrations) {g : Registration}
    (hcurrent : g.incarnation = exits g.pid) {entry : InjectionEntry}
    (hfind : findEntry ledger g.pid = some entry) (hstate : entry.state = .registered)
    (hnew : (g.pid, g.incarnation) ∉ registrations.map fun g => (g.pid, g.incarnation)) :
    OnceEach ledger exits apcs (registrations ++ [g]) := by
  refine ⟨h.distinct, h.apcsOnce, h.apcsPast, h.apcsShown, ?_, ?_, ?_⟩
  · rw [List.map_append, List.map_singleton, ← List.concat_eq_append]
    exact List.Nodup.concat hnew h.registrationsOnce
  · intro other hother
    rcases List.mem_append.mp hother with hold | hlast
    · exact h.registrationsPast other hold
    · rw [List.mem_singleton.mp hlast]
      exact hcurrent.le
  · intro other hother hnow
    rcases List.mem_append.mp hother with hold | hlast
    · exact h.registrationsShown other hold hnow
    · rw [List.mem_singleton.mp hlast]
      exact ⟨entry, hfind, hstate⟩

end

/-! ## Attempts without interleaving -/

/-- An attempt from claim to fixup with nothing in between. -/
def tryInject (s : Engine) (pid : UInt32) (lookupOk queueOk : Bool) : Engine :=
  fixup (runAttempt (tryInjectLocked s pid) 0 lookupOk queueOk) 0

theorem attempt_fixup_of_quiet {s : Engine} (h : s.attempts = []) (lookupOk queueOk : Bool) :
    fixup (runAttempt s 0 lookupOk queueOk) 0 = s := by
  have hattempt : runAttempt s 0 lookupOk queueOk = s := by simp [runAttempt, h]
  rw [hattempt]
  exact fixup_of_none (by simp [h])

/-- An attempt run to its end: nothing, a claim of a Ready entry that was rolled back, or one that
queued its APC. -/
theorem tryInject_cases {s : Engine} (hquiet : s.attempts = []) (pid : UInt32) (lookupOk queueOk : Bool) :
    tryInject s pid lookupOk queueOk = s ∨
      ∃ entry, findEntry s.ledger pid = some entry ∧ entry.state = .ready ∧
        (tryInject s pid lookupOk queueOk).attempts = [] ∧
        (tryInject s pid lookupOk queueOk).exits = s.exits ∧
        ∃ target, (tryInject s pid lookupOk queueOk).ledger =
            updateEntry pid (fun e => { e with state := target }) s.ledger ∧
          ((tryInject s pid lookupOk queueOk).apcs = s.apcs ∨
            target = .injected ∧ ∃ apc : LoadApc, apc.pid = pid ∧ apc.incarnation = s.exits pid ∧
              (tryInject s pid lookupOk queueOk).apcs = s.apcs ++ [apc]) := by
  obtain heq | ⟨entry, thread, path, hfind, hready, heq⟩ := tryInjectLocked_cases s pid
  · refine .inl ?_
    rw [tryInject, heq, attempt_fixup_of_quiet hquiet]
  refine .inr ⟨entry, hfind, hready, ?_⟩
  rw [tryInject, heq, hquiet, List.nil_append]
  set claimed : Attempt :=
    ⟨pid, entry.createTime, s.exits pid, thread, entry.ntdllBase, snapshotPath path, none⟩
  set s₁ : Engine := { s with
    ledger := updateEntry pid (fun entry => { entry with state := .injected }) s.ledger
    attempts := [claimed] } with hs₁
  obtain ⟨-, hdone⟩ | ⟨attempt, hget, -, hcases⟩ := runAttempt_cases s₁ 0 lookupOk queueOk
  · exact absurd rfl (hdone claimed rfl)
  obtain rfl : claimed = attempt := Option.some.inj hget
  obtain ⟨result, hresult, hrun⟩ | ⟨rva, hrun⟩ := hcases
  · have hfixup : (runAttempt s₁ 0 lookupOk queueOk).attempts[0]? =
        some { claimed with result := some result } := by rw [hrun]; rfl
    obtain ⟨hattempts, hexits, hapcs⟩ := fixup_rest hfixup (by simp)
    -- the fixup stores over what the claim stored
    have htwice : ∀ target, updateEntry pid (fun e => { e with state := target })
        (updateEntry pid (fun entry => { entry with state := .injected }) s.ledger) =
        updateEntry pid (fun e => { e with state := target }) s.ledger := by
      intro target
      rw [updateEntry_updateEntry]
      intro _
      rfl
    rw [hattempts, hexits, hapcs, fixup_ledger hfixup, hrun]
    cases result with
    | lookupFailed => exact ⟨rfl, rfl, .ready, htwice .ready, .inl rfl⟩
    | queueFailed => exact ⟨rfl, rfl, .failed, htwice .failed, .inl rfl⟩
    | queued => exact absurd rfl hresult
  · have hfixup : (runAttempt s₁ 0 lookupOk queueOk).attempts[0]? =
        some { claimed with result := some .queued } := by rw [hrun]; rfl
    obtain ⟨hattempts, hexits, hapcs⟩ := fixup_rest hfixup (by simp)
    rw [hattempts, hexits, hapcs, fixup_ledger hfixup, hrun]
    exact ⟨rfl, rfl, .injected, rfl, .inr ⟨rfl, _, rfl, rfl, rfl⟩⟩

section
variable {s : Engine} {registrations : List Registration} {pid : UInt32} {entry : InjectionEntry}
  (h : OnceEach s.ledger s.exits s.apcs registrations) (hfind : findEntry s.ledger pid = some entry)
  (hready : entry.state = .ready)
include h hfind hready

/-- The incarnation of a Ready entry has shown no APC yet. -/
theorem OnceEach.ready_fresh :
    (pid, s.exits pid) ∉ s.apcs.map fun apc => (apc.pid, apc.incarnation) := by
  intro hmem
  obtain ⟨apc, hapc, hkey⟩ := List.mem_map.mp hmem
  simp only [Prod.mk.injEq] at hkey
  obtain ⟨found, hfound, hstate⟩ := h.apcsShown apc hapc (hkey.1 ▸ hkey.2)
  rw [hkey.1, hfind] at hfound
  rw [← Option.some.inj hfound, hready] at hstate
  exact absurd hstate (by decide)

theorem OnceEach.ready_update (target : InjectionState) :
    OnceEach (updateEntry pid (fun e => { e with state := target }) s.ledger) s.exits s.apcs
      registrations := by
  apply h.update pid
  · intro _
    rfl
  · intro found hfound hstate
    rw [Option.some.inj (hfound.symm.trans hfind), hready] at hstate
    exact absurd hstate (by decide)
  · intro found hfound hstate
    rw [Option.some.inj (hfound.symm.trans hfind), hready] at hstate
    exact absurd hstate (by decide)

end

theorem tryInject_once {s : Engine} {registrations : List Registration} (hquiet : s.attempts = [])
    (h : OnceEach s.ledger s.exits s.apcs registrations) (pid : UInt32) (lookupOk queueOk : Bool) :
    (tryInject s pid lookupOk queueOk).attempts = [] ∧
      OnceEach (tryInject s pid lookupOk queueOk).ledger (tryInject s pid lookupOk queueOk).exits
        (tryInject s pid lookupOk queueOk).apcs registrations := by
  obtain heq | ⟨entry, hfind, hready, hattempts, hexits, target, hledger, hapcs⟩ :=
    tryInject_cases hquiet pid lookupOk queueOk
  · rw [heq]
    exact ⟨hquiet, h⟩
  have hupdate := h.ready_update hfind hready target
  rw [hattempts, hexits, hledger]
  refine ⟨rfl, ?_⟩
  obtain hapcs | ⟨rfl, apc, rfl, hincarnation, hapcs⟩ := hapcs
  · rw [hapcs]
    exact hupdate
  · have hinjected : findEntry (updateEntry apc.pid (fun e => { e with state := .injected }) s.ledger)
        apc.pid = some { entry with state := .injected } := by
      rw [findEntry_updateEntry]
      · simp [hfind]
      · intro _
        rfl
    rw [hapcs]
    exact hupdate.queue hincarnation hinjected rfl (hincarnation ▸ h.ready_fresh hfind hready)

/-! ## Invocations keep the invariant -/

/-- Between invocations no attempt is in flight. -/
structure Steady (s : Sensors) : Prop where
  attempts : s.engine.attempts = []
  once : OnceEach s.engine.ledger s.engine.exits s.engine.apcs s.registrations

section
variable {upcase} {s : Sensors}

theorem onProcessCreate_rest (upcase : UInt16 → UInt16) (s : Engine) (pid : UInt32) (createTime : UInt64)
    (name : Option (List UInt16)) (tick : UInt64) (allocated : Bool) :
    (onProcessCreate upcase s pid createTime name tick allocated).attempts = s.attempts ∧
      (onProcessCreate upcase s pid createTime name tick allocated).exits = s.exits ∧
      (onProcessCreate upcase s pid createTime name tick allocated).apcs = s.apcs := by
  unfold onProcessCreate
  split
  · exact ⟨rfl, rfl, rfl⟩
  · simp only
    split
    · exact ⟨rfl, rfl, rfl⟩
    · split <;> exact ⟨rfl, rfl, rfl⟩

theorem Steady.processCreate (h : Steady s) (pid : UInt32) (createTime : UInt64)
    (name : Option (List UInt16)) (tick : UInt64) (allocated : Bool) :
    Steady (s.invoke upcase (.processCreate pid createTime name tick allocated)) := by
  obtain ⟨hattempts, hexits, hapcs⟩ :=
    onProcessCreate_rest upcase s.engine pid createTime name tick allocated
  refine ⟨hattempts.trans h.attempts, ?_⟩
  simp only [Sensors.invoke, Invocation.regions, run_cons, run_nil, Sensors.step, step]
  rw [hexits, hapcs]
  obtain heq | ⟨hnone, nonce, heq⟩ :=
    onProcessCreate_ledger upcase s.engine pid createTime name tick allocated
  · rw [heq]
    exact h.once
  · rw [heq]
    exact h.once.append hnone

/-- Thread and image callbacks: see something of the entry, then try to inject. -/
theorem see_once {e : Engine} {registrations : List Registration} (hquiet : e.attempts = [])
    (h : OnceEach e.ledger e.exits e.apcs registrations) (pid : UInt32)
    {see : InjectionEntry → InjectionEntry} (hpid : ∀ entry, (see entry).pid = entry.pid)
    (hsee : ∀ entry : InjectionEntry, entry.state ≠ .pendingThread → entry.state ≠ .pendingNtdll →
      (see entry).state = entry.state) (lookupOk queueOk : Bool) {e' : Engine}
    (he' : e' = fixup (runAttempt (match findEntry e.ledger pid with
      | none => e
      | some _ => tryInjectLocked { e with ledger := updateEntry pid see e.ledger } pid)
      0 lookupOk queueOk) 0) :
    e'.attempts = [] ∧ OnceEach e'.ledger e'.exits e'.apcs registrations := by
  subst he'
  cases hfind : findEntry e.ledger pid with
  | none =>
    simp only [attempt_fixup_of_quiet hquiet]
    exact ⟨hquiet, h⟩
  | some entry =>
    apply tryInject_once (s := { e with ledger := updateEntry pid see e.ledger }) hquiet
    apply h.update pid hpid
    · intro entry _ hstate
      rw [hsee entry (by simp [hstate]) (by simp [hstate])]
      exact .inl hstate
    · intro entry _ hstate
      rw [hsee entry (by simp [hstate]) (by simp [hstate]), hstate]

theorem Steady.firstThread (h : Steady s) (pid : UInt32) (thread : ℕ) (lookupOk queueOk : Bool) :
    Steady (s.invoke upcase (.firstThread pid thread lookupOk queueOk)) := by
  obtain ⟨hattempts, honce⟩ := see_once h.attempts h.once pid (seeThread_pid thread)
    (fun entry hthread _ => seeThread_state thread entry hthread) lookupOk queueOk rfl
  exact ⟨hattempts, honce⟩

theorem Steady.imageLoad (h : Steady s) (pid : UInt32) (base : UInt64) (name : List UInt16)
    (resolved : Option UInt32) (lookupOk queueOk : Bool) :
    Steady (s.invoke upcase (.imageLoad pid base name resolved lookupOk queueOk)) := by
  obtain ⟨rva, hresolve⟩ : ∃ rva, resolveLdrLoadDll upcase s.engine name resolved =
      { s.engine with ldrLoadDllRva := rva } := by
    unfold resolveLdrLoadDll
    split
    · exact ⟨_, rfl⟩
    · exact ⟨_, rfl⟩
  have hengine : (s.invoke upcase (.imageLoad pid base name resolved lookupOk queueOk)).engine =
      fixup (runAttempt (onImageLoad { s.engine with ldrLoadDllRva := rva } pid base name) 0
        lookupOk queueOk) 0 := by
    rw [← hresolve]
    rfl
  obtain ⟨hattempts, honce⟩ := see_once (e := { s.engine with
      ldrLoadDllRva := rva
      loads := s.engine.loads ++ [⟨pid, s.engine.exits pid, base, name⟩] }) h.attempts h.once pid
    (seeImage_pid base) (seeImage_state base) lookupOk queueOk hengine
  exact ⟨hattempts, honce⟩

theorem Steady.processExit (h : Steady s) (pid : UInt32) :
    Steady (s.invoke upcase (.processExit pid)) := by
  simp only [Sensors.invoke, Invocation.regions, run_cons, run_nil, Sensors.step]
  constructor
  · rw [Sensors.destroyLedgerEntry_engine]
    exact h.attempts
  · rw [Sensors.destroyLedgerEntry_engine]
    have hregistrations : ∀ t : Sensors, (t.destroyLedgerEntry 0).registrations = t.registrations := by
      intro t
      unfold Sensors.destroyLedgerEntry
      split <;> rfl
    rw [hregistrations]
    exact h.once.exit pid

theorem Steady.of_engine {t : Sensors} (h : Steady s) (hledger : t.engine.ledger = s.engine.ledger)
    (hattempts : t.engine.attempts = s.engine.attempts) (hexits : t.engine.exits = s.engine.exits)
    (hapcs : t.engine.apcs = s.engine.apcs) (hregistrations : t.registrations = s.registrations) :
    Steady t := by
  refine ⟨hattempts.trans h.attempts, ?_⟩
  rw [hledger, hexits, hapcs, hregistrations]
  exact h.once

theorem Steady.passOne (h : Steady s) (pid : UInt32) : Steady (s.passOne pid) := by
  obtain heq | ⟨entry, -, -, heq⟩ := s.passOne_cases pid
  · rw [heq]
    exact h.of_engine rfl rfl rfl rfl rfl
  · rw [heq]
    exact h.of_engine rfl rfl rfl rfl rfl

theorem Steady.passTwo (h : Steady s) (k : ℕ) (createOk mapOk openOk dupOk : Bool) :
    Steady (s.passTwo k createOk mapOk openOk dupOk) := by
  obtain ⟨allocFailures, heq⟩ := s.passTwo_engine k createOk mapOk openOk dupOk
  have hregistrations := s.passTwo_registrations k createOk mapOk openOk dupOk
  exact h.of_engine (by rw [heq]) (by rw [heq]) (by rw [heq]) (by rw [heq]) hregistrations

theorem Steady.passThree (h : Steady s) (k : ℕ) : Steady (s.passThree k) := by
  obtain ⟨hengine, -, hregistrations⟩ := s.passThree_rest k
  obtain heq | ⟨c, -, entry, -, -, heq⟩ := s.passThree_ledger k
  · exact h.of_engine heq (by rw [hengine]) (by rw [hengine]) (by rw [hengine]) hregistrations
  · rw [heq] at hengine
    constructor
    · rw [hengine]
      exact h.attempts
    · rw [hengine, hregistrations]
      apply h.once.update c.pid
      · intro _
        rfl
      · intro _ _ hstate
        exact .inl hstate
      · intro _ _ hstate
        exact hstate

theorem Steady.epilogue (h : Steady s) (k : ℕ) (openOk dupOk : Bool) :
    Steady (s.epilogue k openOk dupOk) := by
  have hengine := s.epilogue_engine k openOk dupOk
  exact h.of_engine (by rw [hengine]) (by rw [hengine]) (by rw [hengine]) (by rw [hengine])
    (s.epilogue_registrations k openOk dupOk)

theorem Steady.challenge (h : Steady s) (pid : UInt32)
    (createOk mapOk openOk dupOk adoptOpenOk adoptDupOk : Bool) :
    Steady (s.invoke upcase (.challenge pid createOk mapOk openOk dupOk adoptOpenOk adoptDupOk)) :=
  (((h.passOne pid).passTwo 0 createOk mapOk openOk dupOk).passThree 0).epilogue 0 adoptOpenOk adoptDupOk

theorem Steady.register (h : Steady s) (pid : UInt32) (nonce : UInt64) (sensorVersion : UInt32) :
    Steady (s.invoke upcase (.register pid nonce sensorVersion)) := by
  simp only [Sensors.invoke, Invocation.regions, run_cons, run_nil, Sensors.step]
  obtain heq | ⟨entry, hfind, hinjected, -, heq⟩ := s.register_cases pid nonce sensorVersion
  · rw [heq]
    exact ⟨h.attempts, h.once⟩
  · rw [heq]
    refine ⟨h.attempts, ?_⟩
    have hnew : (pid, s.engine.exits pid) ∉ s.registrations.map fun g => (g.pid, g.incarnation) := by
      intro hmem
      obtain ⟨g, hg, hkey⟩ := List.mem_map.mp hmem
      simp only [Prod.mk.injEq] at hkey
      obtain ⟨found, hfound, hstate⟩ := h.once.registrationsShown g hg (hkey.1 ▸ hkey.2)
      rw [hkey.1, hfind] at hfound
      rw [← Option.some.inj hfound, hinjected] at hstate
      exact absurd hstate (by decide)
    have hupdate : OnceEach
        (updateEntry pid (fun e => { e with state := .registered, sensorVersion }) s.engine.ledger)
        s.engine.exits s.engine.apcs s.registrations := by
      apply h.once.update pid
      · intro _
        rfl
      · intro _ _ _
        exact .inr rfl
      · intro _ _ _
        rfl
    have hregistered : findEntry (updateEntry pid (fun e => { e with state := .registered, sensorVersion })
        s.engine.ledger) pid = some { entry with state := .registered, sensorVersion } := by
      rw [findEntry_updateEntry]
      · simp [hfind]
      · intro _
        rfl
    exact hupdate.registered (g := ⟨pid, s.engine.exits pid, nonce⟩) rfl hregistered rfl hnew

theorem Steady.writeBack (h : Steady s) (va : ℕ) (drained : UInt64) : Steady (s.writeBack va drained) := by
  have hd : Distinct (Sensors.writeCursor va drained s.engine.ledger) :=
    distinct_of_frame (Sensors.writeCursor_frame va drained _) h.once.distinct
  have hfound : ∀ pid entry, findEntry s.engine.ledger pid = some entry →
      ∃ now, findEntry (Sensors.writeCursor va drained s.engine.ledger) pid = some now ∧
        now.state = entry.state := by
    intro pid entry hfind
    obtain ⟨hmem, rfl⟩ := findEntry_mem hfind
    obtain ⟨index, hnow⟩ := mem_writeCursor va drained hmem
    exact ⟨{ entry with ringDrainIndex := index }, findEntry_of_mem hd hnow, rfl⟩
  refine ⟨h.attempts, h.once.of_shown hd ?_ ?_⟩
  · intro pid entry hfind hstate
    obtain ⟨now, hnow, heq⟩ := hfound pid entry hfind
    exact ⟨now, hnow, .inl (heq.trans hstate)⟩
  · intro pid entry hfind hstate
    obtain ⟨now, hnow, heq⟩ := hfound pid entry hfind
    exact ⟨now, hnow, heq.trans hstate⟩

/-- A drain is write-backs only. -/
theorem drain_regions {rings : ℕ → Memory} {region : Region}
    (h : region ∈ (Invocation.drain rings).regions s) : ∃ va drained, region = .writeBack va drained := by
  obtain ⟨ring, -, hring⟩ := List.mem_filterMap.mp h
  unfold drainWriteBack at hring
  split at hring
  · cases hring
  · rename_i va _
    split at hring
    · cases hring
    · obtain ⟨drained, -, rfl⟩ := Option.map_eq_some_iff.mp hring
      exact ⟨va, drained, rfl⟩

theorem run_writeBacks (upcase : UInt16 → UInt16) (regions : List Region)
    (hall : ∀ region ∈ regions, ∃ va drained, region = .writeBack va drained) (h : Steady s) :
    Steady (run (Sensors.step upcase) s regions) ∧
      (run (Sensors.step upcase) s regions).challenges = s.challenges := by
  induction regions generalizing s with
  | nil => exact ⟨h, rfl⟩
  | cons region regions ih =>
    simp only [List.forall_mem_cons] at hall
    obtain ⟨⟨va, drained, rfl⟩, hrest⟩ := hall
    exact ih hrest (h.writeBack va drained)

/-! ## A challenge in sequence -/

/-- The challenge has returned, once, and `true` only to an injected process. -/
def Returned (s₀ s : Sensors) (pid : UInt32) : Prop :=
  s.challenges = [] ∧ ∃ reply, s.replies = s₀.replies ++ [reply] ∧
    (reply.ok = true → ∃ entry, findEntry s₀.engine.ledger pid = some entry ∧
      entry.state = .injected ∧ reply.challenge.nonce = entry.nonce)

/-- The challenge has passed the gate and stands in front of `phase`. -/
def Underway (s₀ s : Sensors) (pid : UInt32) (phase : ChallengePhase) : Prop :=
  ∃ c entry, s.challenges = [c] ∧ s.replies = s₀.replies ∧ c.phase = phase ∧
    findEntry s₀.engine.ledger pid = some entry ∧ entry.state = .injected ∧ c.nonce = entry.nonce

theorem Underway.abandon {s₀ : Sensors} {c : Challenge} {pid : UInt32} (hone : s.challenges.length = 1)
    (hreplies : s.replies = s₀.replies) : Returned s₀ (s.abandon 0 c) pid := by
  obtain ⟨c', hc'⟩ := List.length_eq_one_iff.mp hone
  refine ⟨?_, ⟨c.pid, false, .zero⟩, ?_, by simp⟩
  · simp [Sensors.abandon, Sensors.reject, Sensors.returnFalse, hc']
  · simp [Sensors.abandon, Sensors.reject, Sensors.returnFalse, hreplies]

theorem returned_or_underway_passTwo {s₀ : Sensors} {pid : UInt32} (h : Underway s₀ s pid .passTwo)
    (createOk mapOk openOk dupOk : Bool) :
    Returned s₀ (s.passTwo 0 createOk mapOk openOk dupOk) pid ∨
      Underway s₀ (s.passTwo 0 createOk mapOk openOk dupOk) pid .passThree := by
  obtain ⟨c, entry, hone, hreplies, hphase, hfind, hstate, hnonce⟩ := h
  have hduplicate : ∀ (t : Sensors) (c' : Challenge), t.challenges = s.challenges →
      t.replies = s.replies → c'.nonce = c.nonce →
      Returned s₀ (t.duplicate 0 c' openOk dupOk) pid ∨
        Underway s₀ (t.duplicate 0 c' openOk dupOk) pid .passThree := by
    intro t c' hchallenges htreplies hc'
    unfold Sensors.duplicate
    split
    · exact .inl (Underway.abandon (by simp [hchallenges, hone]) (htreplies.trans hreplies))
    · split
      · exact .inl (Underway.abandon (by simp [hchallenges, hone]) (htreplies.trans hreplies))
      · exact .inr ⟨{ c' with phase := .passThree }, entry, by simp [hchallenges, hone],
          htreplies.trans hreplies, rfl, hfind, hstate, hc'.trans hnonce⟩
  have hfalse : ∀ t : Sensors, t.challenges = [] → t.replies = s.replies →
      Returned s₀ (t.returnFalse c.pid) pid := by
    intro t hchallenges htreplies
    exact ⟨hchallenges, ⟨c.pid, false, .zero⟩, by simp [Sensors.returnFalse, htreplies, hreplies], by simp⟩
  unfold Sensors.passTwo
  simp only [hone, List.getElem?_cons_zero, hphase, ne_eq, not_true_eq_false, if_false]
  split
  · exact hduplicate s _ rfl rfl rfl
  · split
    · exact .inl (hfalse _ rfl rfl)
    · split
      · exact .inl (hfalse _ rfl rfl)
      · exact hduplicate _ _ rfl rfl rfl

theorem underway_passThree {s₀ : Sensors} {pid : UInt32} (h : Underway s₀ s pid .passThree) :
    ∃ ok adoptExisting, Underway s₀ (s.passThree 0) pid (.epilogue ok adoptExisting) := by
  obtain ⟨c, entry, hone, hreplies, hphase, hfind, hstate, hnonce⟩ := h
  have hput : ∀ (t : Sensors) (c' : Challenge) (ok adoptExisting : Bool),
      t.challenges = s.challenges.set 0 c' → t.replies = s.replies → c'.nonce = c.nonce →
      c'.phase = .epilogue ok adoptExisting →
      ∃ ok adoptExisting, Underway s₀ t pid (.epilogue ok adoptExisting) := by
    intro t c' ok adoptExisting hchallenges htreplies hc' hphase'
    exact ⟨ok, adoptExisting, c', entry, by simp [hchallenges, hone], htreplies.trans hreplies, hphase',
      hfind, hstate, hc'.trans hnonce⟩
  unfold Sensors.passThree
  simp only [hone, List.getElem?_cons_zero, hphase, ne_eq, not_true_eq_false, if_false]
  rw [← hone]
  split
  · exact hput _ _ false false rfl rfl rfl rfl
  · split
    · split
      · split
        · exact hput _ _ true true rfl rfl rfl rfl
        · exact hput _ _ true false rfl rfl rfl rfl
      · exact hput _ _ true false rfl rfl rfl rfl
    · exact hput _ _ false false rfl rfl rfl rfl

theorem returned_epilogue {s₀ : Sensors} {pid : UInt32} {ok adoptExisting : Bool}
    (h : Underway s₀ s pid (.epilogue ok adoptExisting)) (openOk dupOk : Bool) :
    Returned s₀ (s.epilogue 0 openOk dupOk) pid := by
  obtain ⟨c, entry, hone, hreplies, hphase, hfind, hstate, hnonce⟩ := h
  have hreject : Returned s₀ (Sensors.reject { s with challenges := s.challenges.eraseIdx 0 } c.pid) pid :=
    ⟨by simp [Sensors.reject, Sensors.returnFalse, hone], ⟨c.pid, false, .zero⟩,
      by simp [Sensors.reject, Sensors.returnFalse, hreplies], by simp⟩
  have hanswer : ∀ ringHandle, Returned s₀ (s.answer 0 c ringHandle) pid := by
    intro ringHandle
    refine ⟨by simp [Sensors.answer, hone], ⟨c.pid, true, ⟨c.nonce, ringHandle, sensorRingSize,
      sensorSlotSize, sensorSlotCount⟩⟩, by simp only [Sensors.answer, hreplies], ?_⟩
    intro _
    exact ⟨entry, hfind, hstate, hnonce⟩
  unfold Sensors.epilogue
  rw [hone]
  simp only [List.getElem?_cons_zero, hphase]
  cases ok with
  | false => exact Underway.abandon (by simp [hone]) hreplies
  | true =>
    cases adoptExisting with
    | false => exact hanswer _
    | true =>
      simp only
      split
      · rw [← hone]
        exact hreject
      · split
        · rw [← hone]
          exact hreject
        · exact hanswer _

theorem Returned.rest {s₀ : Sensors} {pid : UInt32} (h : Returned s₀ s pid) (openOk dupOk : Bool) :
    Returned s₀ ((s.passThree 0).epilogue 0 openOk dupOk) pid := by
  have hthree : s.passThree 0 = s := by simp [Sensors.passThree, h.1]
  have hepilogue : s.epilogue 0 openOk dupOk = s := by simp [Sensors.epilogue, h.1]
  rw [hthree, hepilogue]
  exact h

theorem returned_challenge (hquiet : s.challenges = []) (pid : UInt32)
    (createOk mapOk openOk dupOk adoptOpenOk adoptDupOk : Bool) :
    Returned s (s.invoke upcase
      (.challenge pid createOk mapOk openOk dupOk adoptOpenOk adoptDupOk)) pid := by
  simp only [Sensors.invoke, Invocation.regions, run_cons, run_nil, Sensors.step]
  obtain heq | ⟨entry, hfind, hstate, heq⟩ := s.passOne_cases pid
  · have hone : Returned s (s.passOne pid) pid := by
      rw [heq]
      exact ⟨hquiet, ⟨pid, false, .zero⟩, rfl, by simp⟩
    have htwo : (s.passOne pid).passTwo 0 createOk mapOk openOk dupOk = s.passOne pid := by
      simp [Sensors.passTwo, hone.1]
    rw [htwo]
    exact hone.rest adoptOpenOk adoptDupOk
  · have hone : Underway s (s.passOne pid) pid .passTwo := by
      rw [heq, hquiet, List.nil_append]
      exact ⟨_, entry, rfl, rfl, rfl, hfind, hstate, rfl⟩
    rcases returned_or_underway_passTwo hone createOk mapOk openOk dupOk with hreturned | hunderway
    · exact hreturned.rest adoptOpenOk adoptDupOk
    · obtain ⟨ok, adoptExisting, hthree⟩ := underway_passThree hunderway
      exact returned_epilogue hthree adoptOpenOk adoptDupOk

/-! ## The gate -/

/-- No callback, request or drain is in progress. -/
structure Sequential (s : Sensors) : Prop where
  steady : Steady s
  challenges : s.challenges = []

theorem Sequential.invoke (h : Sequential s) (invocation : Invocation) :
    Sequential (s.invoke upcase invocation) := by
  cases invocation with
  | setPolicy policy => exact ⟨⟨h.steady.attempts, h.steady.once⟩, h.challenges⟩
  | processCreate pid createTime name tick allocated =>
    exact ⟨h.steady.processCreate pid createTime name tick allocated, h.challenges⟩
  | firstThread pid thread lookupOk queueOk =>
    exact ⟨h.steady.firstThread pid thread lookupOk queueOk, h.challenges⟩
  | imageLoad pid base name resolved lookupOk queueOk =>
    exact ⟨h.steady.imageLoad pid base name resolved lookupOk queueOk, h.challenges⟩
  | processExit pid =>
    refine ⟨h.steady.processExit pid, ?_⟩
    simp only [Sensors.invoke, Invocation.regions, run_cons, run_nil, Sensors.step,
      Sensors.destroyLedgerEntry]
    split
    · exact h.challenges
    · exact h.challenges
  | challenge pid createOk mapOk openOk dupOk adoptOpenOk adoptDupOk =>
    exact ⟨h.steady.challenge pid createOk mapOk openOk dupOk adoptOpenOk adoptDupOk,
      (returned_challenge h.challenges pid createOk mapOk openOk dupOk adoptOpenOk adoptDupOk).1⟩
  | register pid nonce sensorVersion =>
    refine ⟨h.steady.register pid nonce sensorVersion, ?_⟩
    simp only [Sensors.invoke, Invocation.regions, run_cons, run_nil, Sensors.step]
    obtain heq | ⟨entry, -, -, -, heq⟩ := s.register_cases pid nonce sensorVersion
    · rw [heq]
      exact h.challenges
    · rw [heq]
      exact h.challenges
  | drain rings =>
    obtain ⟨hsteady, hchallenges⟩ := run_writeBacks upcase
      ((Invocation.drain rings).regions s) (fun region hmem => drain_regions hmem) h.steady
    exact ⟨hsteady, hchallenges.trans h.challenges⟩

theorem gated_drain (rings : ℕ → Memory) : Gated upcase s (.drain rings) := by
  intro ring p hp
  simp only [promotions, List.mem_flatMap, List.mem_map, Prod.mk.injEq] at hp
  obtain ⟨e, he, q, -, rfl, rfl⟩ := hp
  have hring := List.mem_filter.mp (List.mem_of_mem_take he)
  obtain ⟨entry, hentry, rfl⟩ := List.mem_map.mp hring.1
  have hregistered : entry.state = .registered := by
    simpa [InjectionEntry.ringEntry] using (Bool.and_eq_true_iff.mp hring.2).1
  refine ⟨entry, hentry, hregistered, ?_⟩
  intro stamp tail
  exact ⟨_, promotedRecord_decode entry.ringEntry q stamp tail, rfl, rfl, rfl⟩

theorem Sequential.gated (h : Sequential s) (invocation : Invocation) : Gated upcase s invocation := by
  cases invocation with
  | setPolicy policy => exact ⟨rfl, rfl⟩
  | processCreate pid createTime name tick allocated => exact ⟨rfl, rfl⟩
  | firstThread pid thread lookupOk queueOk => exact ⟨rfl, rfl⟩
  | imageLoad pid base name resolved lookupOk queueOk => exact ⟨rfl, rfl⟩
  | processExit pid =>
    simp only [Gated, Sensors.invoke, Invocation.regions, run_cons, run_nil, Sensors.step,
      Sensors.destroyLedgerEntry]
    split
    · exact ⟨rfl, rfl⟩
    · exact ⟨rfl, rfl⟩
  | challenge pid createOk mapOk openOk dupOk adoptOpenOk adoptDupOk =>
    exact (returned_challenge h.challenges pid createOk mapOk openOk dupOk adoptOpenOk adoptDupOk).2
  | register pid nonce sensorVersion =>
    simp only [Gated, Sensors.invoke, Invocation.regions, run_cons, run_nil, Sensors.step]
    obtain heq | ⟨entry, hfind, hinjected, hnonce, heq⟩ := s.register_cases pid nonce sensorVersion
    · rw [heq]
      exact .inl rfl
    · rw [heq]
      exact .inr ⟨entry, hfind, hinjected, hnonce, rfl⟩
  | drain rings => exact gated_drain rings

end

theorem init_sequential (policy : Policy) : Sequential (Sensors.init policy) :=
  ⟨⟨rfl, ⟨List.nodup_nil, List.nodup_nil, by simp [Sensors.init, init], by simp [Sensors.init, init],
    List.nodup_nil, by simp [Sensors.init], by simp [Sensors.init]⟩⟩, rfl⟩

/-- Over every sequence of policy pushes, callbacks, challenges, registers and drains: each
invocation meets the gate, and each incarnation has at most one APC and one registration. -/
theorem handshake_gate (policy : Policy) (invocations : List Invocation) :
    Along (Sensors.invoke upcase) (Gated upcase) (Sensors.init policy) invocations ∧
      ((run (Sensors.invoke upcase) (Sensors.init policy) invocations).registrations.map
        fun g => (g.pid, g.incarnation)).Nodup ∧
      ((run (Sensors.invoke upcase) (Sensors.init policy) invocations).engine.apcs.map
        fun apc => (apc.pid, apc.incarnation)).Nodup := by
  have hsequential : ∀ invocations,
      Sequential (run (Sensors.invoke upcase) (Sensors.init policy) invocations) :=
    run_invariant (fun _ invocation h => h.invoke invocation) (init_sequential policy)
  refine ⟨?_, (hsequential invocations).steady.once.registrationsOnce,
    (hsequential invocations).steady.once.apcsOnce⟩
  rw [along_iff_forall]
  intro before invocation after _
  exact (hsequential before).gated invocation

end SecOutfall.Injection
