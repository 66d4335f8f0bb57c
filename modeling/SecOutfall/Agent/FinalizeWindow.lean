import SecOutfall.Agent.TrackerRuns
import SecOutfall.Foundations.Runs

/-! What finalize saves while the event source keeps feeding the tracker.

Finalize stamps the session, later counts the drops for the report, and later still takes the
snapshot it saves. The events accepted in between are told by the tracker's own bus events: a
process entered, a process left, a drop was observed for the first time. -/
namespace SecOutfall.Agent
open Runs
set_option autoImplicit false

/-! ## Model -/

/-- Between the stamp and the snapshot. -/
def FinalizePoint.stamped : FinalizePoint → Bool
  | .stamp | .save | .ended | .request | .complete | .returned => false
  | _ => true

/-- Between the histogram and the snapshot. -/
def FinalizePoint.counted : FinalizePoint → Bool
  | .score | .dropsSummary | .clockShift | .clockAdjusted | .kill | .snapshot => true
  | _ => false

/-- The manager with the one finalize, and (history) the tracker's events since the stamp and since
the histogram, up to the snapshot. -/
structure Window where
  manager : SessionManager
  finalize : Option Finalize
  sinceStamp : List AgentBusEvent
  sinceHistogram : List AgentBusEvent

def Window.initial (agent : Pipeline) : Window :=
  ⟨⟨agent, false, false, 0, [], []⟩, none, [], []⟩

inductive WindowOp where
  | pipeline (op : Op)
  | raiseScore (score : UInt32)
  | finalize (reason : FinalizeReason) (nowMs : ℤ)
  | finalizeStep (ok : Bool)
  deriving DecidableEq, Repr

section
variable (lower : String → String) (config : Config) (session : SessionConfig)

def windowStep (window : Window) : WindowOp → Window
  | .pipeline op =>
    let agent := Agent.step lower config window.manager.agent op
    let events := agent.published.drop window.manager.agent.published.length
    { window with
      manager := { window.manager with agent }
      sinceStamp := window.sinceStamp ++ if window.finalize.any (·.point.stamped) then events else []
      sinceHistogram :=
        window.sinceHistogram ++ if window.finalize.any (·.point.counted) then events else [] }
  | .raiseScore score =>
    { window with manager := { window.manager with maxScore := max window.manager.maxScore score } }
  | .finalize reason nowMs =>
    match window.finalize with
    | some _ => window
    | none =>
      let (manager, finalize) := finalizeSwap window.manager reason nowMs
      { window with manager, finalize }
  | .finalizeStep ok =>
    match window.finalize with
    | none => window
    | some finalize =>
      let (manager, next) := finalizeStep lower session window.manager finalize ok
      { window with manager, finalize := some next }

/-! ## Closed sessions -/

def EnvelopePayload.dropsSummary : EnvelopePayload → Option (List (String × ℕ))
  | .studyDropsSummary extensions => some extensions
  | _ => none

/-- The current session has ended, and so has every process of its scope. -/
def sessionEnded (state : ScopeState) : Bool :=
  state.currentSession.any fun current =>
    current.endedAtMs.isSome && current.scopedProcesses.all (·.endedAtMs.isSome)

/-- In what finalize saved the session is ended with all its processes, and its histogram is the one
of every `study.drops_summary`. -/
def Closed (manager : SessionManager) : Prop :=
  ∀ saved ∈ manager.saves, sessionEnded saved.1 ∧
    ∀ report ∈ manager.published, ∀ histogram ∈ report.1.payload.dropsSummary,
      dropsHistogram lower saved.1 = histogram

/-- The save is of a snapshot before which every process that entered since the stamp had left, and
no drop had been observed since the histogram. -/
def NothingLate (window : Window) (op : WindowOp) : Prop :=
  match window.finalize, op with
  | some finalize, .finalizeStep _ =>
    finalize.point = .save → window.sinceStamp.foldl trackLive [] = [] ∧ dropsIn window.sinceHistogram = []
  | _, _ => True

end

/-! ## The histogram -/

def histogramTotal : List (String × ℕ) → ℕ
  | [] => 0
  | (_, count) :: rest => count + histogramTotal rest

theorem histogramTotal_bumpEntry (extension : String) (histogram : List (String × ℕ)) :
    histogramTotal (bumpEntry extension histogram) = histogramTotal histogram + 1 := by
  induction histogram with
  | nil => rfl
  | cons entry rest ih =>
    obtain ⟨key, count⟩ := entry
    rw [bumpEntry]
    split
    · simp only [histogramTotal]
      omega
    · split
      · simp only [histogramTotal]
        omega
      · simp only [histogramTotal, ih]
        omega

theorem histogramTotal_extensionHistogram (lower : String → String) (drops : List String) :
    histogramTotal (extensionHistogram lower drops) = drops.length := by
  have hfold (histogram : List (String × ℕ)) :
      histogramTotal (drops.foldl (fun histogram path =>
          bumpEntry (((extensionOf path).map lower).getD "") histogram) histogram) =
        histogramTotal histogram + drops.length := by
    induction drops generalizing histogram with
    | nil => rfl
    | cons path drops ih =>
      rw [List.foldl_cons, ih, histogramTotal_bumpEntry, List.length_cons]
      omega
  exact (hfold []).trans (Nat.zero_add _)

/-- Every further drop shows. -/
theorem extensionHistogram_append_iff (lower : String → String) (drops late : List String) :
    extensionHistogram lower (drops ++ late) = extensionHistogram lower drops ↔ late = [] := by
  constructor
  · intro h
    have hsum : (drops ++ late).length = drops.length := by
      rw [← histogramTotal_extensionHistogram lower, ← histogramTotal_extensionHistogram lower, h]
    rw [List.length_append] at hsum
    exact List.eq_nil_of_length_eq_zero (by omega)
  · rintro rfl
    rw [List.append_nil]

theorem dropsHistogram_eq (lower : String → String) (state : ScopeState) :
    dropsHistogram lower state = extensionHistogram lower (observedDrops state) := by
  cases h : state.currentSession <;> simp [dropsHistogram, observedDrops, h, extensionHistogram]

theorem livePids_stampEnded (state : ScopeState) (nowMs : ℤ) :
    livePids (state.updateCurrent (stampEnded nowMs)) = [] := by
  have hstamped (process : ScopedProcessRecord) :
      (if process.endedAtMs.isNone then { process with endedAtMs := some nowMs } else process).endedAtMs.isNone =
        false := by
    cases h : process.endedAtMs <;> simp [h]
  cases hcurrent : state.currentSession with
  | none => simp [livePids, hcurrent]
  | some current =>
    simp only [livePids, updateCurrent_currentSession, hcurrent, Option.map_some, Option.elim_some, stampEnded]
    rw [List.map_eq_nil_iff, List.filter_eq_nil_iff]
    intro process hprocess
    obtain ⟨process, _, rfl⟩ := List.mem_map.mp hprocess
    rw [hstamped]
    exact Bool.false_ne_true

/-- A session that ended has ended as a whole if none of its processes is live. -/
theorem sessionEnded_iff {state : ScopeState} {nowMs : ℤ} (h : endOf state = some (some nowMs)) :
    sessionEnded state ↔ livePids state = [] := by
  cases hcurrent : state.currentSession with
  | none => simp [endOf, hcurrent] at h
  | some current =>
    have hended : current.endedAtMs = some nowMs := by simpa [endOf, hcurrent] using h
    simp only [sessionEnded, livePids, hcurrent, hended, Option.any_some, Option.isSome_some, Bool.true_and,
      Option.elim_some, List.map_eq_nil_iff, List.filter_eq_nil_iff, List.all_eq_true]
    refine forall₂_congr fun process _ => ?_
    cases process.endedAtMs <;> simp

/-! ## What finalize knows at each point -/

section
variable (lower : String → String)

def NoSummary (published : List (Envelope × Bool)) : Prop :=
  ∀ report ∈ published, report.1.payload.dropsSummary = none

/-- The summary went out, and it was this histogram. -/
structure Summarized (published : List (Envelope × Bool)) (histogram : List (String × ℕ)) : Prop where
  some : ∃ report ∈ published, report.1.payload.dropsSummary = some histogram
  all : ∀ report ∈ published, ∀ histogram' ∈ report.1.payload.dropsSummary, histogram' = histogram

/-- An ended session whose live processes are the ones since its stamp. -/
structure LiveSince (sinceStamp : List AgentBusEvent) (state : ScopeState) : Prop where
  ended : ∃ nowMs, endOf state = some (some nowMs)
  live : livePids state = sinceStamp.foldl trackLive []

/-- A session with the drops of the histogram and those since. -/
def DropsSince (sinceHistogram : List AgentBusEvent) (histogram : List (String × ℕ)) (state : ScopeState) :
    Prop :=
  ∃ drops, histogram = extensionHistogram lower drops ∧
    observedDrops state = drops ++ dropsIn sinceHistogram

def Window.At (window : Window) (finalize : Finalize) : Prop :=
  let state := window.manager.agent.state
  let published := window.manager.published
  match finalize.point with
  | .stamp =>
    window.manager.saves = [] ∧ NoSummary published ∧ window.sinceHistogram = [] ∧ window.sinceStamp = []
  | .identify | .finalizing | .histogram =>
    window.manager.saves = [] ∧ NoSummary published ∧ window.sinceHistogram = [] ∧
      LiveSince window.sinceStamp state
  | .score | .dropsSummary =>
    window.manager.saves = [] ∧ NoSummary published ∧ LiveSince window.sinceStamp state ∧
      DropsSince lower window.sinceHistogram finalize.histogram state
  | .clockShift | .clockAdjusted | .kill | .snapshot =>
    window.manager.saves = [] ∧ Summarized published finalize.histogram ∧
      LiveSince window.sinceStamp state ∧ DropsSince lower window.sinceHistogram finalize.histogram state
  | .save =>
    window.manager.saves = [] ∧ Summarized published finalize.histogram ∧
      LiveSince window.sinceStamp finalize.snapshot ∧
      DropsSince lower window.sinceHistogram finalize.histogram finalize.snapshot
  | .ended | .request | .complete | .returned => True

structure Window.Inv (window : Window) : Prop where
  idle : window.finalize = none →
    window.manager.saves = [] ∧ NoSummary window.manager.published ∧ window.sinceHistogram = [] ∧
      window.sinceStamp = []
  point : ∀ finalize ∈ window.finalize, window.At lower finalize

theorem Window.inv_initial (agent : Pipeline) : (Window.initial agent).Inv lower :=
  ⟨fun _ => ⟨rfl, by simp [NoSummary, Window.initial], rfl, rfl⟩, by simp [Window.initial]⟩

end

section
variable {lower : String → String} {config : Config} {session : SessionConfig}
  {published : List (Envelope × Bool)} {histogram : List (String × ℕ)} {envelope : Envelope}

theorem NoSummary.publish (h : NoSummary published) (hpayload : envelope.payload.dropsSummary = none)
    (ok : Bool) : NoSummary (published ++ [(envelope, ok)]) := by
  intro report hreport
  obtain hbefore | rfl := List.mem_append.mp hreport |>.imp_right List.mem_singleton.mp
  · exact h report hbefore
  · exact hpayload

theorem Summarized.publish (h : Summarized published histogram)
    (hpayload : envelope.payload.dropsSummary = none) (ok : Bool) :
    Summarized (published ++ [(envelope, ok)]) histogram := by
  obtain ⟨report, hreport, hsummary⟩ := h.some
  refine ⟨⟨report, List.mem_append_left _ hreport, hsummary⟩, fun report hreport => ?_⟩
  obtain hbefore | rfl := List.mem_append.mp hreport |>.imp_right List.mem_singleton.mp
  · exact h.all report hbefore
  · simp [hpayload]

theorem NoSummary.summarize (h : NoSummary published)
    (hpayload : envelope.payload.dropsSummary = some histogram) (ok : Bool) :
    Summarized (published ++ [(envelope, ok)]) histogram := by
  refine ⟨⟨(envelope, ok), List.mem_append_right _ (List.mem_singleton_self _), hpayload⟩,
    fun report hreport => ?_⟩
  obtain hbefore | rfl := List.mem_append.mp hreport |>.imp_right List.mem_singleton.mp
  · simp [h report hbefore]
  · simp [hpayload]

/-- Finalize carries what it knows to its next point. -/
theorem Window.At.step {window : Window} {finalize : Finalize} (h : window.At lower finalize)
    (ok : Bool) :
    ({ window with
        manager := (finalizeStep lower session window.manager finalize ok).1
        finalize := some (finalizeStep lower session window.manager finalize ok).2 } : Window).At lower
      (finalizeStep lower session window.manager finalize ok).2 := by
  unfold finalizeStep
  simp only [Window.At] at h
  cases hpoint : finalize.point with
  | stamp =>
    simp only [hpoint] at h
    obtain ⟨hsaves, hsummary, hhistogram, hstamp⟩ := h
    cases hcurrent : window.manager.agent.state.currentSession with
    | none => simp [Window.At, Finalize.goto]
    | some current =>
      simp only [Window.At, Finalize.goto]
      refine ⟨hsaves, hsummary, hhistogram, ⟨finalize.nowMs, ?_⟩, ?_⟩
      · simp [endOf, hcurrent, stampEnded]
      · rw [livePids_stampEnded, hstamp]
        rfl
  | identify =>
    simp only [hpoint] at h
    cases hcurrent : window.manager.agent.state.currentSession with
    | none => simp [Window.At, Finalize.goto]
    | some current =>
      simp only [Window.At]
      exact h
  | finalizing =>
    simp only [hpoint] at h
    simp only [Window.At, Finalize.goto]
    obtain ⟨hsaves, hsummary, hhistogram, hstamped⟩ := h
    exact ⟨hsaves, hsummary.publish rfl ok, hhistogram, hstamped⟩
  | histogram =>
    simp only [hpoint] at h
    simp only [Window.At]
    obtain ⟨hsaves, hsummary, hhistogram, hstamped⟩ := h
    refine ⟨hsaves, hsummary, hstamped, observedDrops window.manager.agent.state,
      dropsHistogram_eq lower _, ?_⟩
    rw [hhistogram]
    exact (List.append_nil _).symm
  | score =>
    simp only [hpoint] at h
    simp only [Window.At, Finalize.goto]
    obtain ⟨hsaves, hsummary, hstamped, hcounted⟩ := h
    exact ⟨hsaves, hsummary.publish rfl ok, hstamped, hcounted⟩
  | dropsSummary =>
    simp only [hpoint] at h
    simp only [Window.At, Finalize.goto]
    obtain ⟨hsaves, hsummary, hstamped, hcounted⟩ := h
    exact ⟨hsaves, hsummary.summarize rfl ok, hstamped, hcounted⟩
  | clockShift =>
    simp only [hpoint] at h
    dsimp only
    split
    · simp only [Window.At, Finalize.goto]
      exact h
    · cases ok <;> simp only [Window.At, Finalize.goto] <;> exact h
  | clockAdjusted =>
    simp only [hpoint] at h
    simp only [Window.At, Finalize.goto]
    obtain ⟨hsaves, hsummary, hstamped, hcounted⟩ := h
    exact ⟨hsaves, hsummary.publish rfl ok, hstamped, hcounted⟩
  | kill =>
    simp only [hpoint] at h
    simp only [Window.At, Finalize.goto]
    exact h
  | snapshot =>
    simp only [hpoint] at h
    simp only [Window.At]
    exact h
  | request =>
    dsimp only
    split <;> simp [Window.At, Finalize.goto]
  | returned => simp [Window.At, hpoint]
  | _ => simp [Window.At, Finalize.goto]

theorem LiveSince.accounts {agent agent' : Pipeline} {since events : List AgentBusEvent}
    (h : LiveSince since agent.state) (haccounts : Accounts agent agent' events) :
    LiveSince (since ++ events) agent'.state := by
  refine ⟨?_, ?_⟩
  · rw [haccounts.ended]
    exact h.ended
  · rw [haccounts.live, h.live, List.foldl_append]

theorem DropsSince.accounts {agent agent' : Pipeline} {since events : List AgentBusEvent}
    (h : DropsSince lower since histogram agent.state) (haccounts : Accounts agent agent' events) :
    DropsSince lower (since ++ events) histogram agent'.state := by
  obtain ⟨drops, hhistogram, hdrops⟩ := h
  refine ⟨drops, hhistogram, ?_⟩
  rw [haccounts.drops, hdrops, dropsIn, dropsIn, dropsIn, List.filterMap_append, List.append_assoc]

/-- The tracker's events of a step extend what is remembered since the stamp and the histogram. -/
theorem Window.At.pipeline {window : Window} {finalize : Finalize} (h : window.At lower finalize)
    (hfinalize : window.finalize = some finalize) (op : Op) :
    (windowStep lower config session window (.pipeline op)).At lower finalize := by
  obtain ⟨events, haccounts⟩ := @step_accounts lower config window.manager.agent op
  have hevents : (Agent.step lower config window.manager.agent op).published.drop
      window.manager.agent.published.length = events := by
    rw [haccounts.published, List.drop_left]
  simp only [windowStep, hfinalize, hevents, Option.any_some, Window.At] at h ⊢
  cases hpoint : finalize.point with
  | stamp => simpa [hpoint, FinalizePoint.stamped, FinalizePoint.counted] using h
  | identify | finalizing | histogram =>
    simp only [hpoint] at h
    obtain ⟨hsaves, hsummary, hhistogram, hlive⟩ := h
    refine ⟨hsaves, hsummary, ?_, hlive.accounts haccounts⟩
    rw [hhistogram]
    rfl
  | score | dropsSummary =>
    simp only [hpoint] at h
    obtain ⟨hsaves, hsummary, hlive, hdrops⟩ := h
    exact ⟨hsaves, hsummary, hlive.accounts haccounts, hdrops.accounts haccounts⟩
  | clockShift | clockAdjusted | kill | snapshot =>
    simp only [hpoint] at h
    obtain ⟨hsaves, hsummary, hlive, hdrops⟩ := h
    exact ⟨hsaves, hsummary, hlive.accounts haccounts, hdrops.accounts haccounts⟩
  | save => simpa [hpoint, FinalizePoint.stamped, FinalizePoint.counted] using h
  | _ => trivial

theorem Window.Inv.step {window : Window} (h : window.Inv lower) (op : WindowOp) :
    (windowStep lower config session window op).Inv lower := by
  cases op with
  | pipeline op =>
    refine ⟨fun hidle => ?_, fun finalize hfinalize => (h.point finalize hfinalize).pipeline hfinalize op⟩
    have hnone : window.finalize = none := hidle
    obtain ⟨hsaves, hsummary, hhistogram, hstamp⟩ := h.idle hnone
    refine ⟨hsaves, hsummary, ?_, ?_⟩
    · simp [windowStep, hnone, hhistogram]
    · simp [windowStep, hnone, hstamp]
  | raiseScore score => exact ⟨h.idle, h.point⟩
  | finalize reason nowMs =>
    cases hfinalize : window.finalize with
    | some finalize =>
      simp only [windowStep, hfinalize]
      exact h
    | none =>
      obtain hidle := h.idle hfinalize
      simp only [windowStep, hfinalize, finalizeSwap]
      split
      · exact ⟨fun _ => hidle, by simp⟩
      · refine ⟨by simp, ?_⟩
        rintro _ ⟨⟩
        exact hidle
  | finalizeStep ok =>
    cases hfinalize : window.finalize with
    | none =>
      simp only [windowStep, hfinalize]
      exact h
    | some finalize =>
      simp only [windowStep, hfinalize]
      refine ⟨by simp, ?_⟩
      intro next hnext
      cases Option.mem_some_iff.mp hnext
      exact (h.point finalize hfinalize).step ok

/-! ## Closed runs -/

theorem closed_of_unsaved {manager : SessionManager} (h : manager.saves = []) : Closed lower manager := by
  simp [Closed, h]

theorem closed_publish_iff {manager : SessionManager}
    (hpayload : envelope.payload.dropsSummary = none) (ok : Bool) :
    Closed lower (manager.publish envelope ok) ↔ Closed lower manager := by
  simp [Closed, SessionManager.publish, or_imp, forall_and, hpayload]

/-- Until the save nothing is saved, and behind it no summary goes out. -/
theorem finalizeStep_closed_iff {window : Window} {finalize : Finalize} (h : window.At lower finalize)
    (hsave : finalize.point ≠ .save) (ok : Bool) :
    Closed lower (finalizeStep lower session window.manager finalize ok).1 ↔
      Closed lower window.manager := by
  have hunsaved {manager : SessionManager} (hsaves : window.manager.saves = [])
      (hsame : manager.saves = window.manager.saves) : Closed lower manager ↔ Closed lower window.manager :=
    iff_of_true (closed_of_unsaved (hsame.trans hsaves)) (closed_of_unsaved hsaves)
  simp only [Window.At] at h
  unfold finalizeStep
  cases hpoint : finalize.point with
  | save => exact absurd hpoint hsave
  | stamp =>
    simp only [hpoint] at h
    cases window.manager.agent.state.currentSession <;> exact hunsaved h.1 rfl
  | identify =>
    simp only [hpoint] at h
    cases window.manager.agent.state.currentSession <;> exact hunsaved h.1 rfl
  | clockShift =>
    simp only [hpoint] at h
    dsimp only
    split <;> exact hunsaved h.1 rfl
  | finalizing | histogram | score | dropsSummary | clockAdjusted | kill | snapshot =>
    simp only [hpoint] at h
    exact hunsaved h.1 rfl
  | ended => exact closed_publish_iff rfl ok
  | request =>
    dsimp only
    split
    · exact Iff.rfl
    · refine closed_publish_iff ?_ ok
      simp only [rebootRequest, Finalize.emit]
      split <;> rfl
  | complete => exact Iff.rfl
  | returned => exact Iff.rfl

theorem save_closed_iff {window : Window} {finalize : Finalize} (h : window.At lower finalize)
    (hpoint : finalize.point = .save) (ok : Bool) :
    Closed lower (finalizeStep lower session window.manager finalize ok).1 ↔
      window.sinceStamp.foldl trackLive [] = [] ∧ dropsIn window.sinceHistogram = [] := by
  simp only [Window.At, hpoint] at h
  obtain ⟨hsaves, hsummarized, hlive, drops, hhistogram, hdrops⟩ := h
  have hsame : dropsHistogram lower finalize.snapshot = finalize.histogram ↔
      dropsIn window.sinceHistogram = [] := by
    rw [dropsHistogram_eq, hdrops, hhistogram, extensionHistogram_append_iff]
  obtain ⟨nowMs, hended⟩ := hlive.ended
  rw [← hlive.live, ← sessionEnded_iff hended, ← hsame]
  simp only [finalizeStep, hpoint, Closed, hsaves, List.nil_append, List.mem_singleton, forall_eq]
  refine and_congr_right fun _ => ⟨fun h => ?_, fun h report hreport histogram hsummary => ?_⟩
  · obtain ⟨report, hreport, hsummary⟩ := hsummarized.some
    exact h report hreport finalize.histogram hsummary
  · rw [h, hsummarized.all report hreport histogram hsummary]

theorem closed_step_iff {window : Window} (h : window.Inv lower) (op : WindowOp) :
    Closed lower (windowStep lower config session window op).manager ↔
      Closed lower window.manager ∧ NothingLate window op := by
  cases hfinalize : window.finalize with
  | none =>
    have hsaves := (h.idle hfinalize).1
    have hlate : NothingLate window op := by simp [NothingLate, hfinalize]
    refine iff_of_true (closed_of_unsaved ?_) ⟨closed_of_unsaved hsaves, hlate⟩
    cases op with
    | finalize reason nowMs =>
      simp only [windowStep, hfinalize, finalizeSwap]
      split <;> exact hsaves
    | finalizeStep ok => simpa [windowStep, hfinalize] using hsaves
    | _ => exact hsaves
  | some finalize =>
    cases op with
    | finalizeStep ok =>
      simp only [windowStep, NothingLate, hfinalize]
      by_cases hpoint : finalize.point = .save
      · have hunsaved : window.manager.saves = [] := by
          have hat := h.point finalize hfinalize
          simp only [Window.At, hpoint] at hat
          exact hat.1
        rw [save_closed_iff (h.point finalize hfinalize) hpoint]
        exact ⟨fun hlate => ⟨closed_of_unsaved hunsaved, fun _ => hlate⟩, fun h => h.2 hpoint⟩
      · rw [finalizeStep_closed_iff (h.point finalize hfinalize) hpoint]
        exact (and_iff_left fun hsave => absurd hsave hpoint).symm
    | finalize reason nowMs => simp [windowStep, NothingLate, hfinalize]
    | pipeline op => simp [windowStep, NothingLate, Closed]
    | raiseScore score => simp [windowStep, NothingLate, Closed]

theorem closed_run_iff {window : Window} (h : window.Inv lower) (ops : List WindowOp) :
    Closed lower (run (windowStep lower config session) window ops).manager ↔
      Closed lower window.manager ∧ Along (windowStep lower config session) NothingLate window ops := by
  induction ops generalizing window with
  | nil => simp [Along]
  | cons op ops ih =>
    rw [run_cons, ih (h.step op), closed_step_iff h op]
    simp only [Along]
    tauto

end

/-- Over any run of one boot, what finalize saves is closed exactly if between the stamp (for
processes) or the histogram (for drops) and the snapshot nothing came that stayed. -/
theorem finalized_closed_iff (lower : String → String) (config : Config) (session : SessionConfig)
    (agent : Pipeline) (ops : List WindowOp) :
    Closed lower (run (windowStep lower config session) (Window.initial agent) ops).manager ↔
      Along (windowStep lower config session) NothingLate (Window.initial agent) ops := by
  rw [closed_run_iff (Window.inv_initial lower agent) ops]
  exact and_iff_right (closed_of_unsaved rfl)

/-- The target starts behind the stamp, and is saved as a running process of an ended session. -/
theorem startInWindow_saved_live :
    ¬ Closed id (run (windowStep id ⟨"explorer.exe", "evil.exe", true, ⟨[.all]⟩, ⟨"actor.exe", []⟩⟩
        ⟨[60], 0, 0, true, true⟩)
      (.initial (boot id ⟨"explorer.exe", "evil.exe", true, ⟨[.all]⟩, ⟨"actor.exe", []⟩⟩
        (openSessionIfNeeded ⟨[60], 0, 0, true, true⟩ 0 ⟨1, []⟩) 16))
      ([.finalize .deadline 60000, .finalizeStep true,
        .pipeline (.source (.processStarted ⟨7, none, "evil.exe", none, none⟩) none 60001)] ++
        List.replicate 9 (.finalizeStep true))).manager := by
  unfold Closed
  decide

end SecOutfall.Agent
