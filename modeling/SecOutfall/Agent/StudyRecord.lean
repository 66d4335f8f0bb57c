import SecOutfall.Agent.Boots

/-! The record a study leaves in its scope file, over any boots and crashes.

A boot that never saves leaves no trace, and its session's number is used again. So the boot behind a
recorded session is the one that opened the session recorded next. -/
namespace SecOutfall.Agent
open Runs
set_option autoImplicit false

/-! ## Model -/

/-- The study with, as history, what the boots that opened the sessions had loaded: those of the file, and
those of the boot under way. -/
structure Chronicle where
  study : Study
  loads : List ScopeState
  own : List ScopeState

def Chronicle.initial : Chronicle := ⟨.initial none, [], []⟩

/-- This step replaces the file. -/
def saves (study : Study) (op : StudyOp) : Bool :=
  match study.boot, op with
  | some ⟨_, .running _ _ (some _)⟩, .tickSave ok => ok
  | some ⟨_, .running _ (some finalize) _⟩, .finalizeStep ok => finalize.point == .save && ok
  | _, _ => false

section
variable (lower : String → String) (config : Config) (session : SessionConfig)

def chronicleStep (c : Chronicle) (op : StudyOp) : Chronicle where
  study := studyStep lower config session c.study op
  loads := if saves c.study op then c.own else c.loads
  own :=
    match c.study.boot, op with
    | none, .load fresh => c.loads ++ [loadScopeState c.study.store fresh]
    | _, _ => c.own

/-! ## The record -/

/-- The session `i` is still open there. -/
def openIn (state : ScopeState) (i : ℕ) : Prop :=
  ∃ record, state.sessions[i]? = some record ∧ record.endedAtMs = none

/-- The `i`-th load belongs to the boot that opened session `i`. -/
structure RecordOf (uptimes : List UInt64) (loads : List ScopeState) (state : ScopeState) : Prop where
  opened : loads.length = state.sessions.length
  counts : ∀ (i : ℕ) (loaded : ScopeState), loads[i]? = some loaded → loaded.sessions.length = i
  ids : ∀ i record, state.sessions[i]? = some record → i < 4294967296 → record.id.toNat = i
  scheduled : ∀ i record, state.sessions[i]? = some record → i < 4294967296 →
    record.scheduledDurationSecs = uptimes[i]?
  ended : ∀ i record, state.sessions[i]? = some record → i + 1 < state.sessions.length →
    record.endedAtMs ≠ none
  abandoned : ∀ i record, state.sessions[i]? = some record →
    (record.abandoned = true ↔ ∃ loaded, loads[i + 1]? = some loaded ∧ openIn loaded i)

/-- Whether a control request ends the study. -/
def EnvelopePayload.endsStudy : EnvelopePayload → Option Bool
  | .studyShutdownRequested _ => some true
  | .studyRebootRequested _ => some false
  | _ => none

/-- The table has no further session. -/
def exhausted (uptimes : List UInt64) (opened : ℕ) : Prop := uptimes = [] ∨ uptimes.length ≤ opened

/-- What a boot's finalize requests: an end exactly if the table is exhausted. -/
structure Requests (manager : SessionManager) (finalize : Option Finalize) : Prop where
  right : ∀ report ∈ manager.published, ∀ ends ∈ report.1.payload.endsStudy,
    (ends = true ↔ exhausted session.uptimes manager.agent.state.sessions.length)
  made : ∀ f ∈ finalize, f.point = .complete ∨ f.point = .returned → session.skipRebootAndShutdown = false →
    ∃ report ∈ manager.published, report.1.payload.endsStudy.isSome

/-- The file is a record of the boots. The boot under way holds one of its own, with its load behind those
it found, and requests what that says. -/
structure StudyRecord (c : Chronicle) : Prop where
  stored : ∀ stored ∈ c.study.store, RecordOf session.uptimes c.loads stored
  held : ∀ loaded manager finalize tick, c.study.boot = some ⟨loaded, .running manager finalize tick⟩ →
    (∃ before, c.own = before ++ [loaded]) ∧ RecordOf session.uptimes c.own manager.agent.state
  requests : ∀ loaded manager finalize tick, c.study.boot = some ⟨loaded, .running manager finalize tick⟩ →
    Requests session manager finalize

end

/-! ## Sessions -/

section
variable {lower : String → String} {config : Config} {session : SessionConfig} {uptimes : List UInt64}
  {loads : List ScopeState} {state loaded : ScopeState}

theorem RecordOf.updateCurrent (h : RecordOf uptimes loads state) {f : SessionRecord → SessionRecord}
    (hid : ∀ record, (f record).id = record.id)
    (hscheduled : ∀ record, (f record).scheduledDurationSecs = record.scheduledDurationSecs)
    (habandoned : ∀ record, (f record).abandoned = record.abandoned) :
    RecordOf uptimes loads (state.updateCurrent f) := by
  have hlength := updateCurrent_length state f
  -- a session of the new state comes from one of the old
  have hfrom (i : ℕ) (record : SessionRecord) (hrecord : (state.updateCurrent f).sessions[i]? = some record) :
      ∃ before, state.sessions[i]? = some before ∧ (record = before ∨ record = f before ∧ i + 1 = state.sessions.length) := by
    rw [updateCurrent_getElem?] at hrecord
    split at hrecord
    · obtain ⟨before, hbefore, rfl⟩ := Option.map_eq_some_iff.mp hrecord
      exact ⟨before, hbefore, .inr ⟨rfl, by assumption⟩⟩
    · exact ⟨record, hrecord, .inl rfl⟩
  refine ⟨h.opened.trans hlength.symm, h.counts, fun i record hrecord hi => ?_, fun i record hrecord hi => ?_,
    fun i record hrecord hi => ?_, fun i record hrecord => ?_⟩
  · obtain ⟨before, hbefore, rfl | ⟨rfl, _⟩⟩ := hfrom i record hrecord
    · exact h.ids i _ hbefore hi
    · rw [hid]
      exact h.ids i before hbefore hi
  · obtain ⟨before, hbefore, rfl | ⟨rfl, _⟩⟩ := hfrom i record hrecord
    · exact h.scheduled i _ hbefore hi
    · rw [hscheduled]
      exact h.scheduled i before hbefore hi
  · obtain ⟨before, hbefore, rfl | ⟨_, hlast⟩⟩ := hfrom i record hrecord
    · exact h.ended i _ hbefore (hlength ▸ hi)
    · omega
  · obtain ⟨before, hbefore, rfl | ⟨rfl, _⟩⟩ := hfrom i record hrecord
    · exact h.abandoned i _ hbefore
    · rw [habandoned]
      exact h.abandoned i before hbefore

theorem RecordOf.tracked {filter : DropFilter} {now : ℤ} {state' : ScopeState} (h : RecordOf uptimes loads state)
    (htracked : Tracked lower filter now state state') : RecordOf uptimes loads state' := by
  obtain ⟨f, rfl, hf⟩ := htracked.updates
  exact h.updateCurrent (fun record => by rw [hf record]) (fun record => by rw [hf record])
    fun record => by rw [hf record]

theorem RecordOf.finalizeStep {manager : SessionManager} (h : RecordOf uptimes loads manager.agent.state)
    (finalize : Finalize) (ok : Bool) :
    RecordOf uptimes loads (finalizeStep lower session manager finalize ok).1.agent.state := by
  rw [finalizeStep_state]
  split
  · exact h.updateCurrent (fun _ => rfl) (fun _ => rfl) fun _ => rfl
  · exact h

theorem RecordOf.load {store : Option ScopeState} (h : RecordOf uptimes loads (store.getD ⟨0, []⟩))
    (fresh : BitVec 128) : RecordOf uptimes loads (loadScopeState store fresh) := by
  have hsessions : (loadScopeState store fresh).sessions = (store.getD ⟨0, []⟩).sessions := by
    unfold loadScopeState
    dsimp only
    split <;> rfl
  refine ⟨?_, h.counts, ?_, ?_, ?_, ?_⟩ <;> rw [hsessions]
  · exact h.opened
  · exact h.ids
  · exact h.scheduled
  · exact h.ended
  · exact h.abandoned

theorem getElem?_concat_cases {α : Type} {l : List α} {a x : α} {i : ℕ} (h : (l ++ [a])[i]? = some x) :
    i < l.length ∧ l[i]? = some x ∨ i = l.length ∧ x = a := by
  by_cases hlt : i < l.length
  · exact .inl ⟨hlt, by rwa [List.getElem?_append_left hlt] at h⟩
  · have hbound := (List.getElem?_eq_some_iff.mp h).1
    rw [List.length_append, List.length_singleton] at hbound
    have hi : i = l.length := by omega
    subst hi
    rw [List.getElem?_concat_length] at h
    exact .inr ⟨rfl, (Option.some.inj h).symm⟩

/-- An open last session is ended and abandoned. -/
theorem closeStale_getElem? (nowMs : ℤ) (i : ℕ) :
    (if loaded.currentSession.any (·.endedAtMs.isNone) then
        loaded.updateCurrent fun session => { session with endedAtMs := some nowMs, abandoned := true }
      else loaded).sessions[i]? =
      loaded.sessions[i]?.map fun record =>
        if i + 1 = loaded.sessions.length ∧ record.endedAtMs = none then
          { record with endedAtMs := some nowMs, abandoned := true }
        else record := by
  have hlast (hi : i + 1 = loaded.sessions.length) : loaded.sessions[i]? = loaded.currentSession := by
    rw [ScopeState.currentSession, List.getLast?_eq_getElem?, ← hi, Nat.add_sub_cancel]
  split
  case isTrue hopen =>
    obtain ⟨current, hcurrent, hended⟩ := (Option.any_eq_true _ _).mp hopen
    rw [updateCurrent_getElem?]
    by_cases hi : i + 1 = loaded.sessions.length
    · have hnone : current.endedAtMs = none := by simpa using hended
      rw [if_pos hi, hlast hi, hcurrent, Option.map_some, Option.map_some, if_pos ⟨hi, hnone⟩]
    · simp [hi]
  case isFalse hopen =>
    by_cases hi : i + 1 = loaded.sessions.length
    · rw [hlast hi]
      cases hcurrent : loaded.currentSession with
      | none => rfl
      | some current =>
        have hsome : current.endedAtMs ≠ none := by simpa [hcurrent] using hopen
        rw [Option.map_some, if_neg fun h => hsome h.2]
    · simp [hi]

/-- A session of the boot's state is one it loaded, an open last one ended and abandoned, or the new one. -/
theorem openSession_cases {nowMs : ℤ} {i : ℕ} {record : SessionRecord}
    (hrecord : (openSessionIfNeeded session nowMs loaded).sessions[i]? = some record) :
    (∃ before, loaded.sessions[i]? = some before ∧ i < loaded.sessions.length ∧
        (record = before ∧ (i + 1 = loaded.sessions.length → before.endedAtMs ≠ none) ∨
          i + 1 = loaded.sessions.length ∧ before.endedAtMs = none ∧
            record = { before with endedAtMs := some nowMs, abandoned := true })) ∨
      i = loaded.sessions.length ∧
        record = ⟨sessionIdOf i, session.uptimes[(sessionIdOf i).toNat]?, nowMs, none, false, [], []⟩ := by
  have hclosed := @closeStale_getElem? loaded nowMs i
  have hlength : (if loaded.currentSession.any (·.endedAtMs.isNone) then
      loaded.updateCurrent fun session => { session with endedAtMs := some nowMs, abandoned := true }
    else loaded).sessions.length = loaded.sessions.length := by
    split
    · exact updateCurrent_length loaded _
    · rfl
  unfold openSessionIfNeeded at hrecord
  generalize (if loaded.currentSession.any (·.endedAtMs.isNone) then _ else loaded) = closed at hrecord hclosed hlength
  obtain ⟨hlt, hold⟩ | ⟨hi, hnew⟩ := getElem?_concat_cases hrecord
  · rw [hclosed, Option.map_eq_some_iff] at hold
    obtain ⟨before, hbefore, hrecord⟩ := hold
    refine .inl ⟨before, hbefore, hlength ▸ hlt, ?_⟩
    split at hrecord
    case isTrue hstale => exact .inr ⟨hstale.1, hstale.2, hrecord.symm⟩
    case isFalse hstale => exact .inl ⟨hrecord.symm, fun hi hended => hstale ⟨hi, hended⟩⟩
  · rw [hlength] at hi hnew
    exact .inr ⟨hi, hi ▸ hnew⟩

/-- The boot's own record: what it loaded is the load of the session it opens. -/
theorem RecordOf.openSession (h : RecordOf session.uptimes loads loaded) (nowMs : ℤ) :
    RecordOf session.uptimes (loads ++ [loaded]) (openSessionIfNeeded session nowMs loaded) := by
  have hopened := openSession_length session nowMs loaded
  constructor
  case opened => rw [hopened, List.length_append, h.opened, List.length_singleton]
  case counts =>
    intro i earlier hearlier
    obtain ⟨_, hold⟩ | ⟨rfl, rfl⟩ := getElem?_concat_cases hearlier
    · exact h.counts i earlier hold
    · exact h.opened.symm
  case ids =>
    intro i record hrecord hi
    obtain ⟨before, hbefore, _, ⟨rfl, _⟩ | ⟨_, _, rfl⟩⟩ | ⟨rfl, rfl⟩ := openSession_cases hrecord
    · exact h.ids i _ hbefore hi
    · exact h.ids i before hbefore hi
    · rw [sessionIdOf_toNat]
      omega
  case scheduled =>
    intro i record hrecord hi
    obtain ⟨before, hbefore, _, ⟨rfl, _⟩ | ⟨_, _, rfl⟩⟩ | ⟨rfl, rfl⟩ := openSession_cases hrecord
    · exact h.scheduled i _ hbefore hi
    · exact h.scheduled i before hbefore hi
    · have hid : min loaded.sessions.length 4294967295 = loaded.sessions.length := by omega
      rw [sessionIdOf_toNat, hid]
  case ended =>
    intro i record hrecord hi
    obtain ⟨before, hbefore, hlt, ⟨rfl, hended⟩ | ⟨_, _, rfl⟩⟩ | ⟨rfl, rfl⟩ := openSession_cases hrecord
    · by_cases hlast : i + 1 = loaded.sessions.length
      · exact hended hlast
      · exact h.ended i _ hbefore (by omega)
    · exact Option.some_ne_none _
    · omega
  case abandoned =>
    intro i record hrecord
    have hlast (hi : i + 1 = loaded.sessions.length) : (loads ++ [loaded])[i + 1]? = some loaded := by
      rw [hi, ← h.opened, List.getElem?_concat_length]
    obtain ⟨before, hbefore, hlt, ⟨rfl, hended⟩ | ⟨hi, hended, rfl⟩⟩ | ⟨rfl, rfl⟩ := openSession_cases hrecord
    · by_cases hi : i + 1 = loaded.sessions.length
      · -- it had ended, and no boot behind it was on record
        have hopen : ¬ openIn loaded i := by
          rintro ⟨record', hrecord', hnone⟩
          cases hbefore.symm.trans hrecord'
          exact hended hi hnone
        have hnone : loads[i + 1]? = none := List.getElem?_eq_none (by rw [h.opened]; omega)
        rw [h.abandoned i _ hbefore, hlast hi, hnone]
        simp [hopen]
      · rw [h.abandoned i _ hbefore, List.getElem?_append_left (by rw [h.opened]; omega)]
    · refine iff_of_true rfl ⟨loaded, hlast hi, before, hbefore, hended⟩
    · refine iff_of_false Bool.false_ne_true ?_
      rintro ⟨_, hload, _⟩
      have hbound := (List.getElem?_eq_some_iff.mp hload).1
      rw [List.length_append, h.opened, List.length_singleton] at hbound
      omega

/-! ## Requests -/

/-- From the identify on, finalize knows how many sessions there are. -/
def Finalize.Counted (finalize : Finalize) (opened : ℕ) : Prop :=
  finalize.point = .stamp ∨ finalize.point = .identify ∨ finalize.sessionCount = opened

theorem Finalize.report_endsStudy {finalize : Finalize} {report : Envelope} {ends : Bool} {opened : ℕ}
    (hreport : finalize.report session = some report) (hends : report.payload.endsStudy = some ends)
    (hcounted : finalize.Counted opened) : ends = true ↔ exhausted session.uptimes opened := by
  unfold Finalize.report at hreport
  cases hp : finalize.point with
  | request =>
    have hcount : finalize.sessionCount = opened := by
      obtain h | h | h := hcounted
      · cases hp.symm.trans h
      · cases hp.symm.trans h
      · exact h
    simp only [hp, Option.ite_none_left_eq_some, Option.some.injEq] at hreport
    obtain ⟨_, rfl⟩ := hreport
    simp only [rebootRequest, Finalize.emit, hcount] at hends
    rw [exhausted, ← List.isEmpty_iff, ← decide_eq_true_iff (p := session.uptimes.length ≤ opened), ← Bool.or_eq_true]
    split at hends
    case isTrue hexhausted => exact iff_of_true (Option.some.inj hends).symm hexhausted
    case isFalse hmore => exact iff_of_false (by rw [← Option.some.inj hends]; exact Bool.false_ne_true) hmore
  | finalizing | score | dropsSummary | clockAdjusted | ended =>
    rw [hp] at hreport
    cases hreport
    cases hends
  | _ =>
    rw [hp] at hreport
    cases hreport

theorem finalizeStep_counted {manager : SessionManager} {finalize : Finalize} (ok : Bool)
    (hsession : manager.agent.state.currentSession.isSome)
    (h : finalize.Counted manager.agent.state.sessions.length) :
    (finalizeStep lower session manager finalize ok).2.Counted manager.agent.state.sessions.length := by
  unfold finalizeStep
  unfold Finalize.Counted at h ⊢
  obtain ⟨current, hcurrent⟩ := Option.isSome_iff_exists.mp hsession
  cases hp : finalize.point with
  | stamp =>
    rw [hcurrent]
    exact .inr (.inl rfl)
  | identify =>
    rw [hcurrent]
    exact .inr (.inr rfl)
  | clockShift =>
    have hcount := h.resolve_left (by simp [hp]) |>.resolve_left (by simp [hp])
    cases session.skipTimeManipulation || session.offsetSecs == 0 <;> exact .inr (.inr hcount)
  | request =>
    have hcount := h.resolve_left (by simp [hp]) |>.resolve_left (by simp [hp])
    cases session.skipRebootAndShutdown <;> exact .inr (.inr hcount)
  | _ =>
    have hcount := h.resolve_left (by simp [hp]) |>.resolve_left (by simp [hp])
    exact .inr (.inr hcount)

/-- A finalize that is behind its request made it at the request, if there is a session. -/
theorem finalizeStep_behindRequest {manager : SessionManager} {finalize : Finalize} {ok : Bool}
    (hsession : manager.agent.state.currentSession.isSome)
    (hbehind : (finalizeStep lower session manager finalize ok).2.point = .complete ∨
      (finalizeStep lower session manager finalize ok).2.point = .returned) :
    finalize.point = .request ∨ finalize.point = .complete ∨ finalize.point = .returned := by
  revert hbehind
  unfold finalizeStep
  obtain ⟨current, hcurrent⟩ := Option.isSome_iff_exists.mp hsession
  cases hp : finalize.point with
  | stamp => simp [hcurrent, Finalize.goto]
  | identify => simp [hcurrent]
  | clockShift =>
    cases session.skipTimeManipulation || session.offsetSecs == 0 <;> cases ok <;> simp [Finalize.goto]
  | request => exact fun _ => .inl rfl
  | complete => exact fun _ => .inr (.inl rfl)
  | returned => exact fun _ => .inr (.inr rfl)
  | _ => simp [Finalize.goto]

theorem Requests.finalizeStep {manager : SessionManager} {finalize : Finalize}
    (h : Requests session manager (some finalize)) (ok : Bool)
    (hsession : manager.agent.state.currentSession.isSome)
    (hcounted : finalize.Counted manager.agent.state.sessions.length) :
    Requests session (Agent.finalizeStep lower session manager finalize ok).1
      (some (Agent.finalizeStep lower session manager finalize ok).2) := by
  constructor
  case right =>
    intro report hreport ends hends
    rw [finalizeStep_length]
    rw [finalizeStep_published, List.mem_append, List.mem_map] at hreport
    obtain hbefore | ⟨envelope, henvelope, rfl⟩ := hreport
    · exact h.right report hbefore ends hends
    · exact Finalize.report_endsStudy (Option.mem_toList.mp henvelope) hends hcounted
  case made =>
    rintro _ ⟨⟩ hbehind hungated
    rw [finalizeStep_published]
    obtain hrequest | hbefore := finalizeStep_behindRequest hsession hbehind
    · have hreport : finalize.report session = some (rebootRequest session finalize) := by
        simp [Finalize.report, hrequest, hungated]
      refine ⟨(rebootRequest session finalize, ok), List.mem_append_right _ (by simp [hreport]), ?_⟩
      simp only [rebootRequest, Finalize.emit]
      split <;> rfl
    · obtain ⟨report, hreport, hends⟩ := h.made finalize rfl hbefore hungated
      exact ⟨report, List.mem_append_left _ hreport, hends⟩

/-! ## Runs -/

def BootPhase.Held (session : SessionConfig) (own : List ScopeState) (loaded : ScopeState) : BootPhase → Prop
  | .booting => ∀ before, own = before ++ [loaded] → RecordOf session.uptimes before loaded
  | .opened state => RecordOf session.uptimes own state
  | .announcing state _ => RecordOf session.uptimes own state
  | .running manager finalize tick =>
    RecordOf session.uptimes own manager.agent.state ∧
      (∀ f ∈ finalize, (f.point = .save → RecordOf session.uptimes own f.snapshot) ∧
        f.Counted manager.agent.state.sessions.length) ∧
      (∀ snapshot ∈ tick, RecordOf session.uptimes own snapshot) ∧ Requests session manager finalize

structure Chronicle.Inv (session : SessionConfig) (c : Chronicle) : Prop where
  stored : RecordOf session.uptimes c.loads (c.study.store.getD ⟨0, []⟩)
  load : ∀ boot ∈ c.study.boot, ∃ before, c.own = before ++ [boot.loaded]
  held : ∀ boot ∈ c.study.boot, boot.phase.Held session c.own boot.loaded

theorem Chronicle.initial_inv : Chronicle.initial.Inv session :=
  ⟨⟨rfl, by simp [initial], by simp [initial, Study.initial], by simp [initial, Study.initial],
    by simp [initial, Study.initial], by simp [initial, Study.initial]⟩,
    by simp [initial, Study.initial], by simp [initial, Study.initial]⟩

section
variable {study : Study} {own : List ScopeState} {boot : Boot} {phase : BootPhase}

theorem Chronicle.Inv.goto (h : Chronicle.Inv session ⟨study, loads, own⟩) (hboot : study.boot = some boot)
    (hphase : phase.Held session own boot.loaded) : Chronicle.Inv session ⟨study.goto boot phase, loads, own⟩ := by
  refine ⟨h.stored, fun boot' hboot' => ?_, fun boot' hboot' => ?_⟩
  · cases hboot'
    exact h.load boot hboot
  · cases hboot'
    exact hphase

theorem Chronicle.Inv.save (h : Chronicle.Inv session ⟨study, loads, own⟩) (hboot : study.boot = some boot)
    {snapshot : ScopeState} {ok : Bool} (hsnapshot : ok = true → RecordOf session.uptimes own snapshot)
    (hphase : phase.Held session own boot.loaded) :
    Chronicle.Inv session ⟨(study.save snapshot ok).goto boot phase, if ok then own else loads, own⟩ := by
  cases ok with
  | false => exact h.goto hboot hphase
  | true =>
    refine ⟨hsnapshot rfl, fun boot' hboot' => ?_, fun boot' hboot' => ?_⟩
    · cases hboot'
      exact h.load boot hboot
    · cases hboot'
      exact hphase

theorem Chronicle.Inv.crash (h : Chronicle.Inv session ⟨study, loads, own⟩) :
    Chronicle.Inv session ⟨{ study with boot := none }, loads, own⟩ :=
  ⟨h.stored, by simp, by simp⟩

end

/-- A boot's state has its own session. -/
theorem RecordOf.current (h : RecordOf uptimes loads state) (hloads : loads ≠ []) : state.currentSession.isSome := by
  rw [ScopeState.currentSession, List.getLast?_isSome]
  intro hnone
  have hlength := h.opened
  rw [hnone, List.length_nil] at hlength
  exact hloads (List.eq_nil_of_length_eq_zero hlength)

theorem Requests.tracked {manager : SessionManager} {finalize : Option Finalize} (h : Requests session manager finalize)
    {agent : Pipeline} (hlength : agent.state.sessions.length = manager.agent.state.sessions.length) :
    Requests session { manager with agent } finalize := by
  refine ⟨fun report hreport ends hends => ?_, h.made⟩
  rw [hlength]
  exact h.right report hreport ends hends

theorem Chronicle.Inv.bootStep {study : Study} {own : List ScopeState} {boot : Boot}
    (h : Chronicle.Inv session ⟨study, loads, own⟩) (hboot : study.boot = some boot) (op : StudyOp) :
    Chronicle.Inv session
      ⟨Agent.bootStep lower config session study boot op, if saves study op then own else loads, own⟩ := by
  have hheld : boot.phase.Held session own boot.loaded := h.held boot hboot
  obtain ⟨before, hown⟩ : ∃ before, own = before ++ [boot.loaded] := h.load boot hboot
  have hne : own ≠ [] := by rw [hown]; simp
  obtain ⟨loaded, phase⟩ := boot
  cases phase with
  | booting =>
    have hsaves : saves study op = false := by simp [saves, hboot]
    rw [hsaves]
    cases op with
    | init nowMs =>
      refine h.goto hboot ?_
      show RecordOf session.uptimes own _
      rw [hown]
      exact (hheld before hown).openSession nowMs
    | crash => exact h.crash
    | _ => exact h
  | opened state =>
    have hsaves : saves study op = false := by simp [saves, hboot]
    rw [hsaves]
    cases op with
    | start realNow now shifted => exact h.goto hboot hheld
    | crash => exact h.crash
    | _ => exact h
  | announcing state left =>
    have hsaves : saves study op = false := by simp [saves, hboot]
    rw [hsaves]
    cases left with
    | nil =>
      cases op with
      | started busCapacity => exact h.goto hboot ⟨hheld, by rintro _ ⟨⟩, by rintro _ ⟨⟩, by rintro _ ⟨⟩, by rintro _ ⟨⟩⟩
      | crash => exact h.crash
      | _ => exact h
    | cons report left =>
      cases op with
      | publish ok =>
        have hleft : BootPhase.Held session own loaded (.announcing state left) := hheld
        obtain ⟨hstored, hload, hphase⟩ := h.goto hboot hleft
        exact ⟨hstored, hload, hphase⟩
      | crash => exact h.crash
      | _ => exact h
  | running manager finalize tick =>
    obtain ⟨hstate, hfinalize, htick, hrequests⟩ := hheld
    cases op with
    | accept event now =>
      rw [show saves study (.accept event now) = false by simp [saves, hboot]]
      have htracked := @accept_tracked lower config manager.agent now event
      have hlength : (accept lower config manager.agent now event).state.sessions.length =
          manager.agent.state.sessions.length := by
        obtain ⟨f, hf, _⟩ := htracked.updates
        rw [hf, updateCurrent_length]
      refine h.goto hboot ⟨hstate.tracked htracked, fun f hf => ?_, htick, hrequests.tracked hlength⟩
      obtain ⟨hsnapshot, hcounted⟩ := hfinalize f hf
      exact ⟨hsnapshot, hlength.symm ▸ hcounted⟩
    | tickSnapshot =>
      rw [show saves study .tickSnapshot = false by simp [saves, hboot]]
      cases tick with
      | some snapshot => exact h
      | none =>
        simp only [Agent.bootStep]
        split
        · exact h
        · refine h.goto hboot ⟨hstate, hfinalize, ?_, hrequests⟩
          rintro _ ⟨⟩
          exact hstate
    | tickSave ok =>
      cases tick with
      | none =>
        rw [show saves study (.tickSave ok) = false by simp [saves, hboot]]
        exact h
      | some snapshot =>
        rw [show saves study (.tickSave ok) = ok by simp [saves, hboot]]
        exact h.save hboot (fun _ => htick snapshot rfl) ⟨hstate, hfinalize, by rintro _ ⟨⟩, hrequests⟩
    | finalize reason nowMs =>
      rw [show saves study (.finalize reason nowMs) = false by simp [saves, hboot]]
      cases finalize with
      | some f => exact h
      | none =>
        simp only [Agent.bootStep, finalizeSwap]
        split
        · exact h.goto hboot ⟨hstate, by rintro _ ⟨⟩, htick, hrequests⟩
        · refine h.goto hboot ⟨hstate, ?_, htick, hrequests.right, ?_⟩
          · rintro _ ⟨⟩
            exact ⟨by rintro ⟨⟩, .inl rfl⟩
          · rintro _ ⟨⟩ (hpoint | hpoint) <;> cases hpoint
    | finalizeStep ok =>
      cases finalize with
      | none =>
        rw [show saves study (.finalizeStep ok) = false by simp [saves, hboot]]
        exact h
      | some f =>
        rw [show saves study (.finalizeStep ok) = (f.point == .save && ok) by cases tick <;> simp [saves, hboot]]
        obtain ⟨hsnapshot, hcounted⟩ := hfinalize f rfl
        have hcurrent := hstate.current hne
        refine h.save hboot (fun hsaves => hsnapshot (by simpa using (Bool.and_eq_true_iff.mp hsaves).1))
          ⟨hstate.finalizeStep f ok, ?_, htick, hrequests.finalizeStep ok hcurrent hcounted⟩
        rintro _ ⟨⟩
        have hlength := finalizeStep_length lower session manager f ok
        refine ⟨fun hpoint => ?_, hlength.symm ▸ finalizeStep_counted ok hcurrent hcounted⟩
        have hsnap : (finalizeStep lower session manager f ok).2.snapshot = manager.agent.state :=
          (finalizeStep_save hpoint).2
        show RecordOf session.uptimes own (finalizeStep lower session manager f ok).2.snapshot
        rw [hsnap]
        exact hstate
    | crash =>
      rw [show saves study .crash = false by simp [saves, hboot]]
      exact h.crash
    | load | init | start | publish | started =>
      simp only [saves, hboot]
      exact h

theorem Chronicle.Inv.step {c : Chronicle} (h : c.Inv session) (op : StudyOp) :
    (chronicleStep lower config session c op).Inv session := by
  unfold chronicleStep studyStep
  cases hboot : c.study.boot with
  | none =>
    have hsaves : saves c.study op = false := by simp [saves, hboot]
    rw [hsaves]
    cases op with
    | load fresh =>
      refine ⟨h.stored, ?_, ?_⟩
      · rintro _ ⟨⟩
        exact ⟨c.loads, rfl⟩
      · rintro _ ⟨⟩ before hown
        obtain ⟨rfl, _⟩ := List.append_inj' hown rfl
        exact h.stored.load fresh
    | _ =>
      refine ⟨h.stored, fun boot hboot' => ?_, fun boot hboot' => ?_⟩
      · cases hboot.symm.trans hboot'
      · cases hboot.symm.trans hboot'
  | some boot => exact h.bootStep hboot op

end

/-- From no file on, over any boots, saves and crashes, the file is a record of the boots. -/
theorem study_recorded (lower : String → String) (config : Config) (session : SessionConfig)
    (ops : List StudyOp) : StudyRecord session (run (chronicleStep lower config session) .initial ops) := by
  have hinv := run_invariant (I := fun c : Chronicle => c.Inv session)
    (fun c op h => @Chronicle.Inv.step lower config session c h op) Chronicle.initial_inv ops
  constructor
  case stored =>
    intro stored hstored
    have h := hinv.stored
    rw [Option.mem_def.mp hstored] at h
    exact h
  case held =>
    intro loaded manager finalize tick hboot
    exact ⟨hinv.load _ hboot, (hinv.held _ hboot).1⟩
  case requests =>
    intro loaded manager finalize tick hboot
    exact (hinv.held _ hboot).2.2.2

end SecOutfall.Agent
