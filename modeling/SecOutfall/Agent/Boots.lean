import SecOutfall.Agent.SessionManager
import SecOutfall.Foundations.Runs

/-! Boots over one scope file: what a study publishes when any boot may be cut by a crash.

A boot loads the file, opens its session in `init`, announces it in `start`, and only then runs the
scheduler, whose `PersistTick`s and the finalize save. A save either replaces the file or leaves
it. A crash, a failed boot and a regular end all drop the boot and keep the file. -/
namespace SecOutfall.Agent
open Runs
set_option autoImplicit false

/-! ## Model -/

/-- Where a boot stands. `tick` is the snapshot of a `PersistTick` whose save has not returned. -/
inductive BootPhase where
  | booting
  | opened (state : ScopeState)
  | announcing (state : ScopeState) (left : List Envelope)
  | running (manager : SessionManager) (finalize : Option Finalize) (tick : Option ScopeState)

/-- A boot with what `load_scope_state` gave it. -/
structure Boot where
  loaded : ScopeState
  phase : BootPhase

/-- The scope file, the boot under way, and the reports of `start` the broker took, over all boots. -/
structure Study where
  store : Option ScopeState
  boot : Option Boot
  announced : List Envelope

def Study.initial (store : Option ScopeState) : Study := ⟨store, none, []⟩

def Study.goto (study : Study) (boot : Boot) (phase : BootPhase) : Study :=
  { study with boot := some { boot with phase } }

def Study.save (study : Study) (snapshot : ScopeState) (ok : Bool) : Study :=
  if ok then { study with store := some snapshot } else study

inductive StudyOp where
  | load (fresh : BitVec 128)
  | init (nowMs : ℤ)
  | start (realNow now : ℤ) (shifted : Bool)
  | publish (ok : Bool)
  | started (busCapacity : ℕ)
  | accept (event : SandboxEvent) (now : ℤ)
  | tickSnapshot
  | tickSave (ok : Bool)
  | finalize (reason : FinalizeReason) (nowMs : ℤ)
  | finalizeStep (ok : Bool)
  | crash
  deriving DecidableEq, Repr

section
variable (lower : String → String) (config : Config) (session : SessionConfig)

/-- One step of a boot under way. -/
def bootStep (study : Study) (boot : Boot) (op : StudyOp) : Study :=
  match boot.phase, op with
  | .booting, .init nowMs =>
    study.goto boot (.opened (openSessionIfNeeded session nowMs boot.loaded))
  | .opened state, .start realNow now shifted =>
    study.goto boot (.announcing state (startReports session state realNow now shifted))
  | .announcing state (report :: left), .publish ok =>
    { study.goto boot (.announcing state left) with
      announced := study.announced ++ if ok then [report] else [] }
  | .announcing state [], .started busCapacity =>
    study.goto boot
      (.running ⟨Agent.boot lower config state busCapacity, false, false, 0, [], []⟩ none none)
  | .running manager finalize tick, .accept event now =>
    study.goto boot
      (.running { manager with agent := Agent.accept lower config manager.agent now event } finalize tick)
  | .running manager finalize none, .tickSnapshot =>
    if manager.finalized then study
    else study.goto boot (.running manager finalize (some manager.agent.state))
  | .running manager finalize (some snapshot), .tickSave ok =>
    (study.save snapshot ok).goto boot (.running manager finalize none)
  | .running manager none tick, .finalize reason nowMs =>
    let (manager, finalize) := finalizeSwap manager reason nowMs
    study.goto boot (.running manager finalize tick)
  | .running manager (some finalize) tick, .finalizeStep ok =>
    let (manager, next) := finalizeStep lower session manager finalize ok
    (study.save finalize.snapshot (finalize.point == .save && ok)).goto boot
      (.running manager (some next) tick)
  | _, .crash => { study with boot := none }
  | _, _ => study

def studyStep (study : Study) (op : StudyOp) : Study :=
  match study.boot, op with
  | none, .load fresh =>
    { study with boot := some ⟨loadScopeState study.store fresh, .booting⟩ }
  | none, _ => study
  | some boot, op => bootStep lower config session study boot op

/-! ## Announced sessions -/

def Study.sessionsStarted (study : Study) : List Envelope :=
  study.announced.filter Envelope.isSessionStarted

/-- Distinct session ids, one study. -/
def Consistent (envelopes : List Envelope) : Prop :=
  envelopes.Pairwise fun e e' => e.sessionId ≠ e'.sessionId ∧ e.studyId = e'.studyId

/-- The scope a boot loaded already counts the session that was announced, in the same study; the id
`u32::MAX` says nothing, since the count saturates there. -/
def Recorded (loaded : ScopeState) (envelope : Envelope) : Prop :=
  envelope.studyId = loaded.studyId ∧ envelope.sessionId.toNat < loaded.sessions.length ∧
    envelope.sessionId ≠ 4294967295

instance (loaded : ScopeState) (envelope : Envelope) : Decidable (Recorded loaded envelope) :=
  inferInstanceAs (Decidable (_ ∧ _ ∧ _))

/-- The `session.started` this step publishes, and what its boot loaded. -/
def announcement (study : Study) (op : StudyOp) : Option (ScopeState × Envelope) :=
  match study.boot, op with
  | some ⟨loaded, .announcing _ (report :: _)⟩, .publish true =>
    if report.isSessionStarted then some (loaded, report) else none
  | _, _ => none

/-- Whoever announces a session loaded a scope that records every session announced before. -/
def AnnouncesRecorded (study : Study) (op : StudyOp) : Prop :=
  ∀ announced ∈ announcement study op, ∀ envelope ∈ study.sessionsStarted,
    Recorded announced.1 envelope

/-! ## What a boot holds -/

def Study.storedSessions (study : Study) : ℕ := (study.store.getD ⟨0, []⟩).sessions.length

/-- The state belongs to a boot that loaded `loaded`: its study, with one session more. -/
structure Belongs (loaded state : ScopeState) : Prop where
  studyId : state.studyId = loaded.studyId
  count : state.sessions.length = loaded.sessions.length + 1

/-- The reports carry the loaded study and the next session id. -/
def Reports (loaded : ScopeState) (reports : List Envelope) : Prop :=
  ∀ report ∈ reports, report.studyId = loaded.studyId ∧
    report.sessionId = sessionIdOf loaded.sessions.length

/-- Until the first save the file is as loaded; every later save is of this boot's state. -/
def BootPhase.Coherent (loaded : ScopeState) (stored : ℕ) : BootPhase → Prop
  | .booting => stored = loaded.sessions.length
  | .opened state =>
    stored = loaded.sessions.length ∧ Belongs loaded state ∧
      state.currentSession.map (·.id) = some (sessionIdOf loaded.sessions.length)
  | .announcing state left =>
    stored = loaded.sessions.length ∧ Belongs loaded state ∧ Reports loaded left
  | .running manager finalize tick =>
    loaded.sessions.length ≤ stored ∧ stored ≤ loaded.sessions.length + 1 ∧
      Belongs loaded manager.agent.state ∧
      (∀ f ∈ finalize, f.point = .save → Belongs loaded f.snapshot) ∧
      ∀ snapshot ∈ tick, Belongs loaded snapshot

structure Study.Inv (study : Study) : Prop where
  boot : ∀ boot ∈ study.boot, boot.phase.Coherent boot.loaded study.storedSessions
  announced : ∀ envelope ∈ study.sessionsStarted,
    envelope.sessionId.toNat ≤ study.storedSessions

theorem Study.inv_initial (store : Option ScopeState) : (Study.initial store).Inv :=
  ⟨by simp [Study.initial], by simp [Study.initial, Study.sessionsStarted]⟩

theorem Belongs.updateCurrent {loaded state : ScopeState} (h : Belongs loaded state)
    (f : SessionRecord → SessionRecord) : Belongs loaded (state.updateCurrent f) :=
  ⟨h.studyId, (updateCurrent_length state f).trans h.count⟩

theorem Belongs.tracked {loaded state state' : ScopeState} {filter : DropFilter} {now : ℤ}
    (h : Belongs loaded state) (htracked : Tracked lower filter now state state') :
    Belongs loaded state' := by
  obtain ⟨f, rfl, _⟩ := htracked.updates
  exact h.updateCurrent f

theorem Belongs.finalizeStep {loaded : ScopeState} {manager : SessionManager}
    (h : Belongs loaded manager.agent.state) (finalize : Finalize) (ok : Bool) :
    Belongs loaded (finalizeStep lower session manager finalize ok).1.agent.state := by
  rw [finalizeStep_state]
  split
  · exact h.updateCurrent _
  · exact h

theorem loadScopeState_length (store : Option ScopeState) (fresh : BitVec 128) :
    (loadScopeState store fresh).sessions.length = (store.getD ⟨0, []⟩).sessions.length := by
  unfold loadScopeState
  dsimp only
  split <;> rfl

theorem openSession_length (nowMs : ℤ) (state : ScopeState) :
    (openSessionIfNeeded session nowMs state).sessions.length = state.sessions.length + 1 := by
  unfold openSessionIfNeeded
  split <;> simp

theorem openSession_belongs (nowMs : ℤ) (state : ScopeState) :
    Belongs state (openSessionIfNeeded session nowMs state) := by
  refine ⟨?_, openSession_length session nowMs state⟩
  unfold openSessionIfNeeded
  split <;> rfl

theorem openSession_current (nowMs : ℤ) (state : ScopeState) :
    (openSessionIfNeeded session nowMs state).currentSession.map (·.id) =
      some (sessionIdOf state.sessions.length) := by
  unfold openSessionIfNeeded
  split <;> simp [ScopeState.currentSession]

/-- All boot reports name the study and the session that was opened. -/
theorem startReports_reports {loaded state : ScopeState} (h : Belongs loaded state)
    (hcurrent : state.currentSession.map (·.id) = some (sessionIdOf loaded.sessions.length))
    (realNow now : ℤ) (shifted : Bool) :
    Reports loaded (startReports session state realNow now shifted) := by
  intro report hreport
  unfold startReports at hreport
  cases hc : state.currentSession with
  | none => simp [hc] at hreport
  | some current =>
    have hid : current.id = sessionIdOf loaded.sessions.length := by simpa [hc] using hcurrent
    simp only [hc, List.mem_append, List.mem_cons, List.not_mem_nil, or_false] at hreport
    obtain hshift | rfl | rfl := hreport
    · unfold studyStartReports at hshift
      split at hshift
      · simp at hshift
      · split at hshift
        · rw [List.mem_singleton.mp hshift]
          exact ⟨h.studyId, hid⟩
        · simp at hshift
    · exact ⟨h.studyId, hid⟩
    · exact ⟨h.studyId, hid⟩

/-! ## Session ids -/

theorem sessionIdOf_toNat (count : ℕ) : (sessionIdOf count).toNat = min count 4294967295 := by
  rw [sessionIdOf, UInt32.toNat_ofNat']
  omega

/-- An id of an earlier count is fresh unless the count saturated. -/
theorem sessionIdOf_fresh_iff {count : ℕ} {id : UInt32} (h : id.toNat ≤ count) :
    id ≠ sessionIdOf count ↔ id.toNat < count ∧ id ≠ 4294967295 := by
  have hcount := sessionIdOf_toNat count
  have hlt := id.toNat_lt
  rw [ne_eq, ne_eq, ← UInt32.toNat_inj, ← UInt32.toNat_inj, hcount]
  have hmax : (4294967295 : UInt32).toNat = 4294967295 := rfl
  omega

/-! ## Steps -/

@[simp] theorem goto_storedSessions (study : Study) (boot : Boot) (phase : BootPhase) :
    (study.goto boot phase).storedSessions = study.storedSessions := rfl

@[simp] theorem goto_announced (study : Study) (boot : Boot) (phase : BootPhase) :
    (study.goto boot phase).announced = study.announced := rfl

@[simp] theorem save_announced (study : Study) (snapshot : ScopeState) (ok : Bool) :
    (study.save snapshot ok).announced = study.announced := by
  unfold Study.save
  split <;> rfl

theorem bootStep_announced {study : Study} {boot : Boot} (op : StudyOp) (hboot : study.boot = some boot) :
    (bootStep lower config session study boot op).sessionsStarted =
      study.sessionsStarted ++ (announcement study op).toList.map (·.2) := by
  obtain ⟨loaded, phase⟩ := boot
  cases phase with
  | booting => cases op <;> simp [bootStep, Study.sessionsStarted, announcement, hboot]
  | opened state => cases op <;> simp [bootStep, Study.sessionsStarted, announcement, hboot]
  | announcing state left =>
    cases left with
    | nil => cases op <;> simp [bootStep, Study.sessionsStarted, announcement, hboot]
    | cons report left =>
      cases op with
      | publish ok =>
        cases ok <;> cases hreport : report.isSessionStarted <;>
          simp [bootStep, Study.sessionsStarted, announcement, hboot, hreport]
      | _ => simp [bootStep, Study.sessionsStarted, announcement, hboot]
  | running manager finalize tick =>
    have hnone : announcement study op = none := by simp [announcement, hboot]
    have hsame : (bootStep lower config session study ⟨loaded, .running manager finalize tick⟩
        op).announced = study.announced := by
      cases finalize <;> cases tick <;> cases op <;> simp [bootStep, apply_ite Study.announced]
    simp [Study.sessionsStarted, hnone, hsame]

theorem studyStep_announced (study : Study) (op : StudyOp) :
    (studyStep lower config session study op).sessionsStarted =
      study.sessionsStarted ++ (announcement study op).toList.map (·.2) := by
  cases hboot : study.boot with
  | none => cases op <;> simp [studyStep, announcement, Study.sessionsStarted, hboot]
  | some boot =>
    simp only [studyStep, hboot]
    exact bootStep_announced lower config session op hboot

/-- What a boot announces is the session after the ones it loaded, and it has saved nothing yet. -/
theorem Study.Inv.announcement {study : Study} (h : study.Inv) {op : StudyOp} {loaded : ScopeState}
    {envelope : Envelope} (hop : announcement study op = some (loaded, envelope)) :
    envelope.studyId = loaded.studyId ∧ envelope.sessionId = sessionIdOf loaded.sessions.length ∧
      study.storedSessions = loaded.sessions.length := by
  unfold Agent.announcement at hop
  split at hop
  · rename_i loaded' state report left hboot
    split at hop
    · cases hop
      obtain ⟨hstored, _, hreports⟩ := h.boot _ hboot
      obtain ⟨hstudy, hid⟩ := hreports envelope List.mem_cons_self
      exact ⟨hstudy, hid, hstored⟩
    · cases hop
  · cases hop

/-- The file lost no session, and the boot under way is coherent with it. -/
structure Study.Keeps (study study' : Study) : Prop where
  grows : study.storedSessions ≤ study'.storedSessions
  boot : ∀ boot ∈ study'.boot, boot.phase.Coherent boot.loaded study'.storedSessions

theorem Study.Keeps.stay {study : Study} {boot : Boot} (hboot : study.boot = some boot)
    (h : boot.phase.Coherent boot.loaded study.storedSessions) : study.Keeps study := by
  refine ⟨Nat.le_refl _, fun boot' hboot' => ?_⟩
  cases hboot.symm.trans hboot'
  exact h

theorem Study.Keeps.goto {study : Study} {boot : Boot} {phase : BootPhase}
    (h : phase.Coherent boot.loaded study.storedSessions) : study.Keeps (study.goto boot phase) := by
  refine ⟨Nat.le_refl _, fun boot' hboot' => ?_⟩
  cases hboot'
  exact h

theorem Study.Keeps.crash (study : Study) : study.Keeps { study with boot := none } :=
  ⟨Nat.le_refl _, fun _ h => nomatch h⟩

theorem Study.Keeps.save {study : Study} {boot : Boot} {snapshot : ScopeState} {ok : Bool}
    {phase : BootPhase} (hlow : boot.loaded.sessions.length ≤ study.storedSessions)
    (hhigh : study.storedSessions ≤ boot.loaded.sessions.length + 1)
    (hsnapshot : ok = true → Belongs boot.loaded snapshot)
    (hphase : ∀ stored, boot.loaded.sessions.length ≤ stored →
      stored ≤ boot.loaded.sessions.length + 1 → phase.Coherent boot.loaded stored) :
    study.Keeps ((study.save snapshot ok).goto boot phase) := by
  have hgrows : study.storedSessions ≤ (study.save snapshot ok).storedSessions ∧
      (study.save snapshot ok).storedSessions ≤ boot.loaded.sessions.length + 1 := by
    cases ok with
    | false => exact ⟨Nat.le_refl _, hhigh⟩
    | true =>
      have hcount : (study.save snapshot true).storedSessions = boot.loaded.sessions.length + 1 :=
        (hsnapshot rfl).count
      omega
  refine ⟨hgrows.1, fun boot' hboot' => ?_⟩
  cases hboot'
  exact hphase _ (Nat.le_trans hlow hgrows.1) hgrows.2

theorem bootStep_keeps {study : Study} {boot : Boot} (op : StudyOp) (hboot : study.boot = some boot)
    (h : boot.phase.Coherent boot.loaded study.storedSessions) :
    study.Keeps (bootStep lower config session study boot op) := by
  obtain ⟨loaded, phase⟩ := boot
  have hstay : study.Keeps study := .stay hboot h
  cases phase with
  | booting =>
    cases op with
    | init nowMs =>
      exact .goto ⟨h, openSession_belongs session nowMs loaded, openSession_current session nowMs loaded⟩
    | crash => exact .crash study
    | _ => exact hstay
  | opened state =>
    cases op with
    | start realNow now shifted =>
      exact .goto ⟨h.1, h.2.1, startReports_reports session h.2.1 h.2.2 realNow now shifted⟩
    | crash => exact .crash study
    | _ => exact hstay
  | announcing state left =>
    cases left with
    | nil =>
      cases op with
      | started busCapacity =>
        have hstored : study.storedSessions = loaded.sessions.length := h.1
        exact .goto ⟨Nat.le_of_eq hstored.symm, Nat.le_succ_of_le (Nat.le_of_eq hstored), h.2.1,
          by simp, by simp⟩
      | crash => exact .crash study
      | _ => exact hstay
    | cons report left =>
      cases op with
      | publish ok =>
        refine ⟨Nat.le_refl _, fun boot' hboot' => ?_⟩
        cases hboot'
        exact ⟨h.1, h.2.1, fun report hreport => h.2.2 report (List.mem_cons_of_mem _ hreport)⟩
      | crash => exact .crash study
      | _ => exact hstay
  | running manager finalize tick =>
    obtain ⟨hlow, hhigh, hstate, hfinalize, htick⟩ := h
    cases op with
    | accept event now =>
      exact .goto ⟨hlow, hhigh, hstate.tracked lower (accept_tracked manager.agent now event), hfinalize, htick⟩
    | tickSnapshot =>
      cases tick with
      | some snapshot => exact hstay
      | none =>
        simp only [bootStep]
        split
        · exact hstay
        · refine .goto ⟨hlow, hhigh, hstate, hfinalize, ?_⟩
          rintro _ ⟨⟩
          exact hstate
    | tickSave ok =>
      cases tick with
      | none => exact hstay
      | some snapshot =>
        exact .save hlow hhigh (fun _ => htick snapshot rfl)
          fun _ hlow hhigh => ⟨hlow, hhigh, hstate, hfinalize, by simp⟩
    | finalize reason nowMs =>
      cases finalize with
      | some f => exact hstay
      | none =>
        simp only [bootStep, finalizeSwap]
        split
        · exact .goto ⟨hlow, hhigh, hstate, by simp, htick⟩
        · refine .goto ⟨hlow, hhigh, hstate, ?_, htick⟩
          rintro _ ⟨⟩ ⟨⟩
    | finalizeStep ok =>
      cases finalize with
      | none => exact hstay
      | some f =>
        refine .save hlow hhigh (fun hsaves => ?_) fun _ hlow hhigh =>
          ⟨hlow, hhigh, hstate.finalizeStep lower session f ok, ?_, htick⟩
        · have hpoint : f.point = .save := by
            simpa using (Bool.and_eq_true_iff.mp hsaves).1
          exact hfinalize f rfl hpoint
        · intro next hnext hpoint
          have heq : (finalizeStep lower session manager f ok).2 = next := Option.some.inj hnext
          subst heq
          rw [(finalizeStep_save hpoint).2]
          exact hstate
    | crash => exact .crash study
    | _ => exact hstay

/-- The file only grows, and by one session a boot. -/
theorem Study.Inv.step {study : Study} (h : study.Inv) (op : StudyOp) :
    (studyStep lower config session study op).Inv := by
  have hkeeps : study.Keeps (studyStep lower config session study op) := by
    cases hboot : study.boot with
    | none =>
      cases op with
      | load fresh =>
        simp only [studyStep, hboot]
        refine ⟨Nat.le_refl _, fun boot hboot' => ?_⟩
        cases hboot'
        exact (loadScopeState_length study.store fresh).symm
      | _ =>
        simp only [studyStep, hboot]
        exact ⟨Nat.le_refl _, h.boot⟩
    | some boot =>
      simp only [studyStep, hboot]
      exact bootStep_keeps lower config session op hboot (h.boot boot hboot)
  refine ⟨hkeeps.boot, fun envelope henvelope => ?_⟩
  rw [studyStep_announced, List.mem_append] at henvelope
  obtain hbefore | hnow := henvelope
  · exact Nat.le_trans (h.announced envelope hbefore) hkeeps.grows
  · cases hop : Agent.announcement study op with
    | none => simp [hop] at hnow
    | some announced =>
      obtain ⟨_, hid, hstored⟩ := h.announcement hop
      have henvelope : envelope = announced.2 := by simpa [hop] using hnow
      have hgrows := hkeeps.grows
      rw [henvelope, hid, sessionIdOf_toNat]
      omega

theorem consistent_append_iff {envelopes : List Envelope} {envelope : Envelope} :
    Consistent (envelopes ++ [envelope]) ↔
      Consistent envelopes ∧ ∀ e ∈ envelopes,
        e.sessionId ≠ envelope.sessionId ∧ e.studyId = envelope.studyId := by
  simp [Consistent, List.pairwise_append]

theorem consistent_step_iff {study : Study} (h : study.Inv) (op : StudyOp) :
    Consistent (studyStep lower config session study op).sessionsStarted ↔
      AnnouncesRecorded study op ∧ Consistent study.sessionsStarted := by
  rw [studyStep_announced, AnnouncesRecorded]
  cases hop : announcement study op with
  | none => simp
  | some announced =>
    obtain ⟨loaded, envelope⟩ := announced
    obtain ⟨hstudy, hid, hstored⟩ := h.announcement hop
    simp only [Option.toList_some, List.map_cons, List.map_nil, consistent_append_iff, Option.mem_some_iff,
      forall_eq', and_comm (b := Consistent study.sessionsStarted)]
    refine and_congr_right fun _ => forall₂_congr fun e he => ?_
    have hle : e.sessionId.toNat ≤ loaded.sessions.length := hstored ▸ h.announced e he
    rw [hstudy, hid, sessionIdOf_fresh_iff hle, Recorded]
    tauto

theorem consistent_run_iff {study : Study} (h : study.Inv) (ops : List StudyOp) :
    Consistent (run (studyStep lower config session) study ops).sessionsStarted ↔
      Consistent study.sessionsStarted ∧
        Along (studyStep lower config session) AnnouncesRecorded study ops := by
  induction ops generalizing study with
  | nil => simp [Along]
  | cons op ops ih =>
    rw [run_cons, ih (h.step lower config session op), consistent_step_iff lower config session h op]
    simp only [Along]
    tauto

/-- Over any boots of one scope file the announced sessions are distinct sessions of one study
exactly if every boot that announces one loaded a scope that records all announced before. -/
theorem announced_consistent_iff (store : Option ScopeState) (ops : List StudyOp) :
    Consistent (run (studyStep lower config session) (Study.initial store) ops).sessionsStarted ↔
      Along (studyStep lower config session) AnnouncesRecorded (Study.initial store) ops := by
  rw [consistent_run_iff lower config session (Study.inv_initial store) ops]
  exact and_iff_right .nil

end

/-- The second boot finds no file, and announces the first boot's session id for a study of its
own. -/
theorem crashBeforeFirstSave_repeats :
    ¬ Consistent (run
      (studyStep id ⟨"explorer.exe", "evil.exe", true, ⟨[]⟩, ⟨"actor.exe", []⟩⟩ ⟨[60], 0, 0, true, true⟩)
      (.initial none)
      [.load 1, .init 0, .start 0 0 false, .publish true, .publish true, .crash,
       .load 2, .init 5, .start 5 5 false, .publish true, .publish true]).sessionsStarted := by
  unfold Consistent
  decide

end SecOutfall.Agent
