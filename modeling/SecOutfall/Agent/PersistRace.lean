import SecOutfall.Agent.SessionManager
import SecOutfall.Agent.Store
import SecOutfall.Foundations.Runs

/-! `PersistTick` saves against the save of finalize, over one scope file.

The scheduler's persist loop awaits each tick, so one is in flight at a time; it looks at the
finalized flag, takes its snapshot and saves, and finalize may come between any two of these. -/
namespace SecOutfall.Agent
open Runs
set_option autoImplicit false

/-! ## Model -/

inductive Tick where
  | checked
  | saving (save : Save ScopeState)

inductive Persisting where
  | idle
  | running (finalize : Finalize)
  | saving (finalize : Finalize) (save : Save ScopeState)

structure Persistence where
  manager : SessionManager
  disk : Disk ScopeState
  tick : Option Tick
  finalize : Persisting

inductive PersistOp where
  | pipeline (op : Op)
  | tickCheck
  | tickSnapshot
  | tickStep
  | finalize (reason : FinalizeReason) (nowMs : ℤ)
  | finalizeStep (ok : Bool)
  deriving DecidableEq, Repr

def tickSaveOf : Option Tick → Option (Save ScopeState)
  | some (.saving save) => some save
  | _ => none

def Persisting.save : Persisting → Option (Save ScopeState)
  | .saving _ save => some save
  | _ => none

def Persistence.tickSave (s : Persistence) : Option (Save ScopeState) := tickSaveOf s.tick

section
variable (lower : String → String) (config : Config) (session : SessionConfig) (renamesOpen : Bool)

/-- A boot after `start`, over whatever file it found. -/
def Persistence.start (loaded : ScopeState) (nowMs : ℤ) (busCapacity : ℕ) (disk : Disk ScopeState) :
    Persistence where
  manager :=
    ⟨boot lower config (openSessionIfNeeded session nowMs loaded) busCapacity, false, false, 0, [], []⟩
  disk := disk
  tick := none
  finalize := .idle

/-- One step of finalize outside its save. -/
def Persistence.advance (s : Persistence) (finalize : Finalize) (ok : Bool) : Persistence :=
  let (manager, next) := finalizeStep lower session s.manager finalize ok
  { s with
    manager
    finalize := if next.point = .save then .saving next (.begin next.snapshot) else .running next }

def persistStep (s : Persistence) : PersistOp → Persistence
  | .pipeline op =>
    { s with manager := { s.manager with agent := Agent.step lower config s.manager.agent op } }
  | .tickCheck =>
    match s.tick with
    | none => if s.manager.finalized then s else { s with tick := some .checked }
    | some _ => s
  | .tickSnapshot =>
    match s.tick with
    | some .checked => { s with tick := some (.saving (.begin s.manager.agent.state)) }
    | _ => s
  | .tickStep =>
    match s.tick with
    | some (.saving save) =>
      match save.point with
      | .returned _ => { s with tick := none }
      | _ =>
        let (disk, save) := saveStep renamesOpen s.finalize.save s.disk save
        { s with disk, tick := some (.saving save) }
    | _ => s
  | .finalize reason nowMs =>
    match s.finalize, finalizeSwap s.manager reason nowMs with
    | .idle, (manager, some finalize) => { s with manager, finalize := .running finalize }
    | _, _ => s
  | .finalizeStep ok =>
    match s.finalize with
    | .idle => s
    | .running finalize => s.advance lower session finalize ok
    | .saving finalize save =>
      match save.point with
      | .returned ok => s.advance lower session finalize ok
      | _ =>
        let (disk, save) := saveStep renamesOpen s.tickSave s.disk save
        { s with disk, finalize := .saving finalize save }

end

def currentEnded (state : ScopeState) : Bool := state.currentSession.any (·.endedAtMs.isSome)

/-- Behind the save. -/
def FinalizePoint.saved : FinalizePoint → Bool
  | .ended | .request | .complete | .returned => true
  | _ => false

/-- Finalize has tried to create its temp file. -/
def Persisting.created : Persisting → Bool
  | .idle => false
  | .running finalize => finalize.point.saved
  | .saving _ save => save.point != .remove && save.point != .create

/-- A tick with a snapshot from before the stamp does not create the temp file behind finalize's
create, and finalize's create does not find the temp file of such a tick. -/
def savesInOrder (s : Persistence) (op : PersistOp) : Bool :=
  match s.tickSave, op with
  | some save, .tickStep =>
    currentEnded save.snapshot ||
      !(save.point == .create && s.disk.temp.isNone && s.finalize.created)
  | some save, .finalizeStep _ =>
    currentEnded save.snapshot || !(s.finalize.save.any (·.point == .create) && s.disk.temp.isSome)
  | _, _ => true

/-! ## What a step can do -/

/-- Finalize has no file open: it is outside its save, or the save has returned. -/
def Persisting.At (f : Finalize) (finalize : Persisting) : Prop :=
  finalize = .running f ∨ ∃ save ok, finalize = .saving f save ∧ save.point = .returned ok

inductive PersistMoves (lower : String → String) (config : Config) (session : SessionConfig)
    (s : Persistence) : PersistOp → Persistence → Prop where
  | stays (op : PersistOp) : PersistMoves lower config session s op s
  | pipeline (op : Op) :
    PersistMoves lower config session s (.pipeline op)
      { s with manager := { s.manager with agent := Agent.step lower config s.manager.agent op } }
  | checks (htick : s.tick = none) (hopen : s.manager.finalized = false) :
    PersistMoves lower config session s .tickCheck { s with tick := some .checked }
  | snapshots (htick : s.tick = some .checked) :
    PersistMoves lower config session s .tickSnapshot
      { s with tick := some (.saving (.begin s.manager.agent.state)) }
  | tickReturns (save : Save ScopeState) (ok : Bool) (htick : s.tick = some (.saving save))
      (hpoint : save.point = .returned ok) :
    PersistMoves lower config session s .tickStep { s with tick := none }
  | tickSaves (save : Save ScopeState) {save' : Save ScopeState} {disk' : Disk ScopeState}
      (htick : s.tick = some (.saving save))
      (hsaves : SaveMoves s.finalize.save s.disk save disk' save') :
    PersistMoves lower config session s .tickStep { s with disk := disk', tick := some (.saving save') }
  | begins (reason : FinalizeReason) (nowMs : ℤ) (hidle : s.finalize = .idle)
      (hopen : s.manager.finalized = false) :
    PersistMoves lower config session s (.finalize reason nowMs)
      { s with
        manager := { s.manager with finalized := true }
        finalize := .running (.begin reason nowMs) }
  | advances (f : Finalize) (ok' ok : Bool) (hat : s.finalize.At f) :
    PersistMoves lower config session s (.finalizeStep ok') (s.advance lower session f ok)
  | saves (f : Finalize) (save : Save ScopeState) (ok : Bool) {save' : Save ScopeState}
      {disk' : Disk ScopeState} (hfinalize : s.finalize = .saving f save)
      (hsaves : SaveMoves s.tickSave s.disk save disk' save') :
    PersistMoves lower config session s (.finalizeStep ok)
      { s with disk := disk', finalize := .saving f save' }

theorem persistStep_moves (lower : String → String) (config : Config) (session : SessionConfig)
    (renamesOpen : Bool) (s : Persistence) (op : PersistOp) :
    PersistMoves lower config session s op (persistStep lower config session renamesOpen s op) := by
  unfold persistStep
  cases op with
  | pipeline op => exact .pipeline op
  | tickCheck =>
    cases htick : s.tick with
    | some tick => exact .stays _
    | none =>
      cases hopen : s.manager.finalized with
      | true => exact .stays _
      | false => exact .checks htick hopen
  | tickSnapshot =>
    cases htick : s.tick with
    | none => exact .stays _
    | some tick =>
      cases tick with
      | checked => exact .snapshots htick
      | saving save => exact .stays _
  | tickStep =>
    cases htick : s.tick with
    | none => exact .stays _
    | some tick =>
      cases tick with
      | checked => exact .stays _
      | saving save =>
        dsimp only
        split
        · rename_i ok hpoint
          exact .tickReturns save ok htick hpoint
        · exact .tickSaves save htick (saveStep_moves renamesOpen _ _ _)
  | finalize reason nowMs =>
    unfold finalizeSwap
    cases hfinalize : s.finalize with
    | idle =>
      cases hopen : s.manager.finalized with
      | true => exact .stays _
      | false => exact .begins reason nowMs hfinalize hopen
    | running f => exact .stays _
    | saving f save => exact .stays _
  | finalizeStep ok =>
    cases hfinalize : s.finalize with
    | idle => exact .stays _
    | running f => exact .advances f ok ok (.inl hfinalize)
    | saving f save =>
      dsimp only
      split
      · rename_i ok' hpoint
        exact .advances f ok ok' (.inr ⟨save, ok', hfinalize, hpoint⟩)
      · exact .saves f save ok hfinalize (saveStep_moves renamesOpen _ _ _)

theorem tickSave_none {s : Persistence} (h : s.tick = none) : s.tickSave = none := by
  simp [Persistence.tickSave, tickSaveOf, h]

theorem tickSave_checked {s : Persistence} (h : s.tick = some .checked) : s.tickSave = none := by
  simp [Persistence.tickSave, tickSaveOf, h]

theorem tickSave_saving {s : Persistence} {save : Save ScopeState} (h : s.tick = some (.saving save)) :
    s.tickSave = some save := by
  simp [Persistence.tickSave, tickSaveOf, h]

/-! ## The invariant -/

def Recent (state : ScopeState) : Prop := currentEnded state = true

/-- What finalize did to the shared state, by where it stands. -/
def Persisting.Known (manager : SessionManager) : Persisting → Prop
  | .idle => manager.finalized = false ∧ manager.finalizeDone = false
  | .running finalize =>
    manager.finalized = true ∧ (manager.finalizeDone = true → finalize.point = .returned) ∧
      (finalize.point ≠ .stamp → Recent manager.agent.state) ∧ finalize.point ≠ .save
  | .saving finalize save =>
    manager.finalized = true ∧ manager.finalizeDone = false ∧ finalize.point = .save ∧
      Recent manager.agent.state ∧ Recent save.snapshot

/-- What finalize did to the files: nothing before its remove, then the temp path is clear but for the
tick, and behind its create the target settles. -/
structure Persisting.OnDisk (disk : Disk ScopeState) (tick : Option (Save ScopeState))
    (finalize : Persisting) : Prop where
  before : finalize.created = false → Unrenamed disk tick
  cleared : ∀ save ∈ finalize.save, save.point = .create → Cleared disk tick
  settling : finalize.created = true → Settling Recent disk tick finalize.save

structure Persistence.Inv (s : Persistence) : Prop where
  session : s.manager.agent.state.currentSession.isSome
  known : s.finalize.Known s.manager
  tidy : Tidy s.disk s.tickSave s.finalize.save

def Persistence.OnDisk (s : Persistence) : Prop := s.finalize.OnDisk s.disk s.tickSave

/-- A stale tick has the target, and no other tick will come. -/
structure Persistence.Lost (s : Persistence) : Prop where
  created : s.finalize.created = true
  tick : s.tick ≠ some .checked
  doomed : ∃ file, Doomed Recent s.disk s.tickSave s.finalize.save file

section
variable {lower : String → String} {config : Config} {session : SessionConfig} {renamesOpen : Bool}

theorem still_none : Still (none : Option (Save ScopeState)) := fun _ h => nomatch h

theorem still_begin (snapshot : ScopeState) : Still (some (Save.begin snapshot)) := by
  rintro _ ⟨⟩
  exact ⟨rfl, fun h => nomatch h⟩

theorem still_returned {save : Save ScopeState} {ok : Bool} (h : save.point = .returned ok) :
    Still (some save) := by
  rintro _ ⟨⟩
  exact ⟨by simp [Save.file, h], by simp [h]⟩

theorem recent_updateCurrent {state : ScopeState} {f : SessionRecord → SessionRecord}
    (hf : ∀ session, (f session).endedAtMs = session.endedAtMs) (h : Recent state) :
    Recent (state.updateCurrent f) := by
  simpa [Recent, currentEnded, Option.any_map, Function.comp_def, hf] using h

theorem recent_stamped {state : ScopeState} (nowMs : ℤ) (h : state.currentSession.isSome) :
    Recent (state.updateCurrent (stampEnded nowMs)) := by
  obtain ⟨current, hcurrent⟩ := Option.isSome_iff_exists.mp h
  simp [Recent, currentEnded, hcurrent, stampEnded]

theorem pipeline_recent {agent : Pipeline} (h : Recent agent.state) (op : Op) :
    Recent (step lower config agent op).state := by
  obtain ⟨now, htracked⟩ := @step_tracked lower config agent op
  obtain ⟨f, hstate, hf⟩ := htracked.updates
  rw [hstate]
  exact recent_updateCurrent (fun session => by rw [hf session]) h

theorem Persisting.Known.pipeline {finalize : Persisting} {manager : SessionManager}
    (h : finalize.Known manager) (op : Op) :
    finalize.Known { manager with agent := step lower config manager.agent op } := by
  cases finalize with
  | idle => exact h
  | running f => exact ⟨h.1, h.2.1, fun hpoint => pipeline_recent (h.2.2.1 hpoint) op, h.2.2.2⟩
  | saving f save => exact ⟨h.1, h.2.1, h.2.2.1, pipeline_recent h.2.2.2.1 op, h.2.2.2.2⟩

/-- Replacing a tick that touches nothing by another such keeps finalize where it is. -/
theorem Persisting.OnDisk.still {finalize : Persisting} {disk : Disk ScopeState}
    {tick tick' : Option (Save ScopeState)} (h : finalize.OnDisk disk tick) (htick : Still tick)
    (htick' : Still tick') : finalize.OnDisk disk tick' :=
  ⟨fun _ => .still htick', fun save hsave hpoint => (h.cleared save hsave hpoint).still htick htick',
    fun hcreated => (h.settling hcreated).still htick htick'⟩

/-- And so does a step of finalize outside its save. -/
theorem Persisting.OnDisk.quiet {finalize finalize' : Persisting} {disk : Disk ScopeState}
    {tick : Option (Save ScopeState)} (h : finalize.OnDisk disk tick) (hstill : Still finalize.save)
    (hstill' : Still finalize'.save) (hcreated : finalize'.created = finalize.created) :
    finalize'.OnDisk disk tick := by
  refine ⟨fun hnot => h.before (hcreated.symm.trans hnot), fun save hsave hpoint => ?_, fun hset => ?_⟩
  · exact absurd hpoint (hstill' save hsave).2
  · exact ((h.settling (hcreated.symm.trans hset)).swap.still hstill hstill').swap

theorem Persisting.OnDisk.tickStep {finalize : Persisting} {disk disk' : Disk ScopeState}
    {save save' : Save ScopeState} (h : finalize.OnDisk disk (some save))
    (htidy : Tidy disk (some save) finalize.save)
    (hcreate : finalize.created = true → save.point = .create → disk.temp = none → Recent save.snapshot)
    (hmoves : SaveMoves finalize.save disk save disk' save') : finalize.OnDisk disk' (some save') := by
  refine ⟨fun hcreated => (h.before hcreated).step htidy hmoves, fun own hown hpoint => ?_,
    fun hcreated => (h.settling hcreated).step htidy (hcreate hcreated) hmoves⟩
  refine (h.cleared own hown hpoint).step htidy (fun other hother => ?_) hmoves
  cases Option.mem_unique hown hother
  simp [Save.file, hpoint]

/-- A step of finalize's own save. -/
theorem Persisting.OnDisk.saveStep {f : Finalize} {disk disk' : Disk ScopeState}
    {save save' : Save ScopeState} {tick : Option (Save ScopeState)}
    (h : (Persisting.saving f save).OnDisk disk tick) (htidy : Tidy disk tick (some save))
    (hrecent : Recent save.snapshot)
    (hway : save.point = .create → disk.temp ≠ none → ∀ other ∈ tick, Recent other.snapshot)
    (hmoves : SaveMoves tick disk save disk' save') : (Persisting.saving f save').OnDisk disk' tick := by
  obtain ⟨hremove, hcreate⟩ := hmoves.forward
  by_cases hpoint : save.point = .remove
  · obtain ⟨hcleared, hnext⟩ := (h.before (by simp [Persisting.created, hpoint])).clear hpoint hmoves
    exact ⟨fun _ => hcleared.target, fun _ _ _ => hcleared, fun hcreated => by simp [Persisting.created, hnext] at hcreated⟩
  · have hcreated : (Persisting.saving f save').created = true := by
      simp [Persisting.created, hremove, hcreate, hpoint]
    refine ⟨fun hnot => absurd (hnot.symm.trans hcreated) Bool.false_ne_true, ?_, fun _ => ?_⟩
    · rintro _ ⟨⟩ hnext
      exact absurd (hcreate.mp hnext) hpoint
    · by_cases hbefore : save.point = .create
      · exact (h.cleared save rfl hbefore).create htidy hrecent hbefore (hway hbefore) hmoves
      · have hsettling := h.settling (by simp [Persisting.created, hpoint, hbefore])
        exact (hsettling.swap.step htidy.swap (fun hcreate => absurd hcreate hbefore) hmoves).swap

theorem Persistence.inv_start (loaded : ScopeState) (nowMs : ℤ) (busCapacity : ℕ)
    (stored : Option ScopeState) (leftover : Bool) :
    (Persistence.start lower config session loaded nowMs busCapacity (.initial stored leftover)).Inv := by
  refine ⟨?_, ⟨rfl, rfl⟩, tidy_initial stored leftover⟩
  simp [Persistence.start, boot, openSessionIfNeeded, ScopeState.currentSession]

theorem Persistence.onDisk_start (loaded : ScopeState) (nowMs : ℤ) (busCapacity : ℕ)
    (disk : Disk ScopeState) :
    (Persistence.start lower config session loaded nowMs busCapacity disk).OnDisk := by
  refine ⟨fun _ => .still still_none, ?_, ?_⟩
  · rintro _ ⟨⟩
  · rintro ⟨⟩

/-- Where a step of finalize leads, as far as the save goes. -/
theorem finalizeStep_next {manager : SessionManager} (hsession : manager.agent.state.currentSession.isSome)
    (f : Finalize) (ok : Bool) :
    (finalizeStep lower session manager f ok).2.point ≠ .stamp ∧
      (finalizeStep lower session manager f ok).2.point.saved = (f.point == .save || f.point.saved) ∧
      ((finalizeStep lower session manager f ok).1.finalizeDone = true →
        (finalizeStep lower session manager f ok).2.point = .returned ∨
          manager.finalizeDone = true ∧ f.point ≠ .returned) := by
  obtain ⟨current, hcurrent⟩ := Option.isSome_iff_exists.mp hsession
  unfold finalizeStep
  cases hpoint : f.point with
  | stamp => simp [hcurrent, Finalize.goto, FinalizePoint.saved]
  | identify => simp [hcurrent, FinalizePoint.saved]
  | clockShift =>
    cases session.skipTimeManipulation || session.offsetSecs == 0 <;> cases ok <;>
      simp [Finalize.goto, FinalizePoint.saved]
  | request =>
    cases session.skipRebootAndShutdown <;> simp [Finalize.goto, FinalizePoint.saved, SessionManager.publish]
  | returned => simp [hpoint, FinalizePoint.saved]
  | _ => simp [Finalize.goto, FinalizePoint.saved, SessionManager.publish]

theorem Persisting.At.still {f : Finalize} {finalize : Persisting} (h : finalize.At f) : Still finalize.save := by
  obtain rfl | ⟨save, ok, rfl, hpoint⟩ := h
  · exact still_none
  · exact still_returned hpoint

theorem Persisting.At.created {f : Finalize} {finalize : Persisting} {manager : SessionManager}
    (h : finalize.At f) (hknown : finalize.Known manager) :
    finalize.created = (f.point == .save || f.point.saved) := by
  obtain rfl | ⟨save, ok, rfl, hpoint⟩ := h
  · simp [Persisting.created, hknown.2.2.2]
  · simp [Persisting.created, hpoint, hknown.2.2.1]

theorem Persisting.At.known {f : Finalize} {finalize : Persisting} {manager : SessionManager}
    (h : finalize.At f) (hknown : finalize.Known manager) :
    manager.finalized = true ∧ (manager.finalizeDone = true → f.point = .returned) ∧
      (f.point ≠ .stamp → Recent manager.agent.state) := by
  obtain rfl | ⟨save, ok, rfl, hpoint⟩ := h
  · exact ⟨hknown.1, hknown.2.1, hknown.2.2.1⟩
  · refine ⟨hknown.1, fun hdone => ?_, fun _ => hknown.2.2.2.1⟩
    exact absurd (hknown.2.1.symm.trans hdone) Bool.false_ne_true

/-- A step of finalize outside its save holds no file and creates none. -/
theorem Persistence.Inv.advance_quiet {s : Persistence} (h : s.Inv) {f : Finalize} (ok : Bool)
    (hat : s.finalize.At f) :
    Still (s.advance lower session f ok).finalize.save ∧
      (s.advance lower session f ok).finalize.created = s.finalize.created := by
  obtain ⟨_, hsaved, _⟩ := @finalizeStep_next lower session s.manager h.session f ok
  rw [hat.created h.known]
  by_cases hsave : (finalizeStep lower session s.manager f ok).2.point = .save
  · obtain ⟨hpoint, _⟩ := finalizeStep_save hsave
    simp only [Persistence.advance, hsave, if_true]
    exact ⟨still_begin _, by simp [Persisting.created, Save.begin, hpoint, FinalizePoint.saved]⟩
  · simp only [Persistence.advance, hsave, if_false]
    exact ⟨still_none, hsaved⟩

theorem Persistence.Inv.advance {s : Persistence} (h : s.Inv) {f : Finalize} (ok : Bool)
    (hat : s.finalize.At f) : (s.advance lower session f ok).Inv := by
  have hgrows := @finalizeStep_grows lower session s.manager f ok
  obtain ⟨hstamp, _, hdone⟩ := @finalizeStep_next lower session s.manager h.session f ok
  obtain ⟨htaken, hreturned, hstamped⟩ := hat.known h.known
  have hrecent : Recent (finalizeStep lower session s.manager f ok).1.agent.state := by
    rw [finalizeStep_state]
    split
    · exact recent_stamped f.nowMs h.session
    · rename_i hpoint
      exact hstamped hpoint
  have hreturns : (finalizeStep lower session s.manager f ok).1.finalizeDone = true →
      (finalizeStep lower session s.manager f ok).2.point = .returned := by
    intro hset
    obtain hnext | ⟨hbefore, hpoint⟩ := hdone hset
    · exact hnext
    · exact absurd (hreturned hbefore) hpoint
  refine ⟨hgrows.session h.session, ?_, (h.tidy.swap.still (h.advance_quiet ok hat).1).swap⟩
  by_cases hsave : (finalizeStep lower session s.manager f ok).2.point = .save
  · obtain ⟨hpoint, hsnapshot⟩ := finalizeStep_save hsave
    simp only [Persistence.advance, hsave, if_true]
    refine ⟨hgrows.taken.trans htaken, Bool.eq_false_iff.mpr fun hset => ?_, hsave, hrecent, ?_⟩
    · exact absurd (hsave.symm.trans (hreturns hset)) (by simp)
    · show Recent (finalizeStep lower session s.manager f ok).2.snapshot
      rw [hsnapshot]
      exact hstamped (by simp [hpoint])
  · simp only [Persistence.advance, hsave, if_false]
    exact ⟨hgrows.taken.trans htaken, hreturns, fun _ => hrecent, hsave⟩

theorem Persisting.created_save {finalize : Persisting} (h : finalize.created = true) :
    ∀ save ∈ finalize.save, save.point ≠ .remove ∧ save.point ≠ .create := by
  cases finalize with
  | saving f save =>
    rintro _ ⟨⟩
    simpa [Persisting.created] using h
  | _ => rintro _ ⟨⟩

theorem Persistence.Inv.taken {s : Persistence} (h : s.Inv) (hcreated : s.finalize.created = true) :
    s.manager.finalized = true := by
  have hknown := h.known
  cases hfinalize : s.finalize with
  | idle => simp [hfinalize, Persisting.created] at hcreated
  | running f =>
    rw [hfinalize] at hknown
    exact hknown.1
  | saving f save =>
    rw [hfinalize] at hknown
    exact hknown.1

theorem Persistence.Inv.step {s s' : Persistence} {op : PersistOp} (h : s.Inv)
    (hmoves : PersistMoves lower config session s op s') : s'.Inv := by
  cases hmoves with
  | stays op => exact h
  | pipeline op =>
    exact ⟨(@pipeline_grows lower config s.manager op).session h.session, h.known.pipeline op, h.tidy⟩
  | checks htick hopen => exact ⟨h.session, h.known, h.tidy.still still_none⟩
  | snapshots htick => exact ⟨h.session, h.known, h.tidy.still (still_begin _)⟩
  | tickReturns save ok htick hpoint => exact ⟨h.session, h.known, h.tidy.still still_none⟩
  | tickSaves save htick hsaves =>
    exact ⟨h.session, h.known, (tickSave_saving htick ▸ h.tidy).step hsaves⟩
  | begins reason nowMs hidle hopen =>
    have hknown := h.known
    rw [hidle] at hknown
    refine ⟨h.session, ⟨rfl, fun hset => ?_, fun hpoint => absurd rfl hpoint, by simp [Finalize.begin]⟩,
      (h.tidy.swap.still still_none).swap⟩
    exact absurd (hknown.2.symm.trans hset) Bool.false_ne_true
  | advances f ok' ok hat => exact h.advance ok hat
  | saves f save ok hfinalize hsaves =>
    have hknown := h.known
    have htidy := h.tidy
    rw [hfinalize] at hknown htidy
    obtain ⟨htaken, hdone, hpoint, hrecent, hsnapshot⟩ := hknown
    exact ⟨h.session, ⟨htaken, hdone, hpoint, hrecent, hsaves.snapshot ▸ hsnapshot⟩,
      (htidy.swap.step hsaves).swap⟩

theorem Persistence.OnDisk.step {s s' : Persistence} {op : PersistOp} (h : s.OnDisk) (hinv : s.Inv)
    (hop : savesInOrder s op = true) (hmoves : PersistMoves lower config session s op s') : s'.OnDisk := by
  cases hmoves with
  | stays op => exact h
  | pipeline op => exact h
  | checks htick hopen => exact h.still (tickSave_none htick ▸ still_none) still_none
  | snapshots htick => exact h.still (tickSave_checked htick ▸ still_none) (still_begin _)
  | tickReturns save ok htick hpoint =>
    exact h.still (tickSave_saving htick ▸ still_returned hpoint) still_none
  | tickSaves save htick hsaves =>
    have hsave := tickSave_saving htick
    have hdisk : s.finalize.OnDisk s.disk (some save) := hsave ▸ h
    refine hdisk.tickStep (hsave ▸ hinv.tidy) (fun hcreated hpoint htemp => ?_) hsaves
    simpa [Recent, savesInOrder, hsave, hpoint, htemp, hcreated] using hop
  | begins reason nowMs hidle hopen =>
    refine Persisting.OnDisk.quiet h (hidle ▸ still_none) still_none ?_
    rw [hidle]
    rfl
  | advances f ok' ok hat =>
    obtain ⟨hstill, hcreated⟩ := @Persistence.Inv.advance_quiet lower session s hinv f ok hat
    exact Persisting.OnDisk.quiet h hat.still hstill hcreated
  | saves f save ok hfinalize hsaves =>
    have hknown := hinv.known
    have htidy := hinv.tidy
    have hdisk : s.finalize.OnDisk s.disk s.tickSave := h
    rw [hfinalize] at hknown htidy hdisk
    refine hdisk.saveStep htidy hknown.2.2.2.2 (fun hpoint htemp other hother => ?_) hsaves
    have hlink := Option.isSome_iff_ne_none.mpr htemp
    have hsave : s.finalize.save = some save := by simp [hfinalize, Persisting.save]
    simpa [Recent, savesInOrder, Option.mem_def.mp hother, hsave, hpoint, hlink] using hop

theorem tick_of_tickSave {s : Persistence} {save : Save ScopeState} (h : s.tickSave = some save) :
    s.tick = some (.saving save) := by
  obtain ⟨manager, disk, tick, finalize⟩ := s
  obtain _ | _ | other := tick
  · simp [Persistence.tickSave, tickSaveOf] at h
  · simp [Persistence.tickSave, tickSaveOf] at h
  · cases Option.some.inj h
    rfl

theorem finalize_of_save {finalize : Persisting} {save : Save ScopeState} (h : finalize.save = some save) :
    ∃ f, finalize = .saving f save := by
  cases finalize with
  | saving f other =>
    cases Option.some.inj h
    exact ⟨f, rfl⟩
  | _ => simp [Persisting.save] at h

/-- Out of order, a stale tick takes the target. -/
theorem Persistence.OnDisk.lost {s : Persistence} {op : PersistOp} (h : s.OnDisk) (hinv : s.Inv)
    (hop : savesInOrder s op = false) : (persistStep lower config session renamesOpen s op).Lost := by
  cases hsave : s.tickSave with
  | none => simp [savesInOrder, hsave] at hop
  | some save =>
    have htick := tick_of_tickSave hsave
    cases op with
    | tickStep =>
      obtain ⟨⟨⟨hstale, hpoint⟩, htemp⟩, hcreated⟩ :
          ((currentEnded save.snapshot = false ∧ save.point = .create) ∧ s.disk.temp = none) ∧
            s.finalize.created = true := by
        simpa [savesInOrder, hsave, and_assoc] using hop
      simp only [persistStep, htick, hpoint]
      refine ⟨hcreated, by simp, s.disk.next, ?_⟩
      exact doomed_of_create (hsave ▸ hinv.tidy) hpoint htemp (by simp [Recent, hstale])
        (Persisting.created_save hcreated) (saveStep_moves renamesOpen _ _ _)
    | finalizeStep ok =>
      obtain ⟨hstale, ⟨own, hown, hpoint⟩, file, htemp⟩ :
          currentEnded save.snapshot = false ∧ (∃ own, s.finalize.save = some own ∧ own.point = .create) ∧
            ∃ file, s.disk.temp = some file := by
        simpa [savesInOrder, hsave, Option.any_eq_true, Option.isSome_iff_exists] using hop
      obtain ⟨f, hfinalize⟩ := finalize_of_save hown
      have hcleared : Cleared s.disk s.tickSave := h.cleared own hown hpoint
      have hmoves := saveStep_moves renamesOpen s.tickSave s.disk own
      have hcreate := hmoves.forward
      simp only [persistStep, hfinalize, hpoint]
      refine ⟨by simp [Persisting.created, hcreate, hpoint], by simp [htick], file, ?_⟩
      refine hcleared.create_doomed hpoint htemp (fun other hother => ?_) hmoves
      cases Option.some.inj (hsave.symm.trans hother)
      simp [Recent, hstale]
    | _ => simp [savesInOrder, hsave] at hop

theorem Persistence.Lost.step {s s' : Persistence} {op : PersistOp} (h : s.Lost) (hinv : s.Inv)
    (hmoves : PersistMoves lower config session s op s') : s'.Lost := by
  obtain ⟨hcreated, hchecked, file, hdoomed⟩ := h
  have htaken := hinv.taken hcreated
  cases hmoves with
  | stays op => exact ⟨hcreated, hchecked, file, hdoomed⟩
  | pipeline op => exact ⟨hcreated, hchecked, file, hdoomed⟩
  | checks htick hopen => exact absurd (hopen.symm.trans htaken) Bool.false_ne_true
  | snapshots htick => exact absurd htick hchecked
  | tickReturns save ok htick hpoint =>
    exact ⟨hcreated, by simp, file, hdoomed.still (tickSave_saving htick ▸ still_returned hpoint)⟩
  | tickSaves save htick hsaves =>
    have hsave := tickSave_saving htick
    exact ⟨hcreated, by simp, file, (hsave ▸ hdoomed).step_stale (hsave ▸ hinv.tidy) hsaves⟩
  | begins reason nowMs hidle hopen => exact absurd (hopen.symm.trans htaken) Bool.false_ne_true
  | advances f ok' ok hat =>
    obtain ⟨hstill, hsame⟩ := @Persistence.Inv.advance_quiet lower session s hinv f ok hat
    have hbehind := Persisting.created_save (hsame.trans hcreated)
    exact ⟨hsame.trans hcreated, hchecked, file, hdoomed.still_own hstill fun save hsave => (hbehind save hsave).1⟩
  | saves f save ok hfinalize hsaves =>
    have hforward := hsaves.forward
    rw [hfinalize] at hcreated hdoomed
    refine ⟨?_, hchecked, file, hdoomed.step_own hsaves⟩
    have hremove : save.point ≠ .remove := (Persisting.created_save hcreated save rfl).1
    simp [Persisting.created, hforward, hremove]

/-- A run along the order settles, any other is lost. -/
theorem Persistence.run_settles {s : Persistence} (hinv : s.Inv) (h : s.OnDisk) (ops : List PersistOp) :
    (run (persistStep lower config session renamesOpen) s ops).Inv ∧
      (Along (persistStep lower config session renamesOpen) (fun s op => savesInOrder s op = true) s ops →
        (run (persistStep lower config session renamesOpen) s ops).OnDisk) ∧
      (¬ Along (persistStep lower config session renamesOpen) (fun s op => savesInOrder s op = true) s ops →
        (run (persistStep lower config session renamesOpen) s ops).Lost) := by
  induction ops generalizing s with
  | nil => exact ⟨hinv, fun _ => h, fun hnot => absurd trivial hnot⟩
  | cons op ops ih =>
    have hmoves := persistStep_moves lower config session renamesOpen s op
    have hinv' := hinv.step hmoves
    by_cases hop : savesInOrder s op = true
    · obtain ⟨hend, hsettled, hlost⟩ := ih hinv' (h.step hinv hop hmoves)
      exact ⟨hend, fun halong => hsettled halong.2, fun hnot => hlost fun halong => hnot ⟨hop, halong⟩⟩
    · have hlost := @Persistence.OnDisk.lost lower config session renamesOpen s op h hinv (Bool.eq_false_iff.mpr hop)
      have hstep (s : Persistence) (op : PersistOp) (h : s.Inv ∧ s.Lost) :
          (persistStep lower config session renamesOpen s op).Inv ∧
            (persistStep lower config session renamesOpen s op).Lost := by
        have hmoves := persistStep_moves lower config session renamesOpen s op
        exact ⟨h.1.step hmoves, h.2.step h.1 hmoves⟩
      obtain ⟨hends, hlosts⟩ := run_invariant (I := fun s : Persistence => s.Inv ∧ s.Lost) hstep ⟨hinv', hlost⟩ ops
      exact ⟨hends, fun halong => absurd halong.1 hop, fun _ => hlosts⟩

/-- With both at rest and finalize complete, finalize is behind its save. -/
theorem Persistence.Inv.complete {s : Persistence} (h : s.Inv) (hdone : s.manager.finalizeDone = true) :
    s.finalize.created = true ∧ s.finalize.save = none := by
  have hknown := h.known
  cases hfinalize : s.finalize with
  | idle =>
    rw [hfinalize] at hknown
    exact absurd (hknown.2.symm.trans hdone) Bool.false_ne_true
  | running f =>
    rw [hfinalize] at hknown
    exact ⟨by simp [Persisting.created, hknown.2.1 hdone, FinalizePoint.saved], rfl⟩
  | saving f save =>
    rw [hfinalize] at hknown
    exact absurd (hknown.2.1.symm.trans hdone) Bool.false_ne_true

/-- Once finalize is complete and no tick is under way, the persisted scope has the current session
ended exactly if the saves came in order. -/
theorem persisted_ended_iff (lower : String → String) (config : Config) (session : SessionConfig)
    (renamesOpen : Bool) (loaded : ScopeState) (nowMs : ℤ) (busCapacity : ℕ) (stored : Option ScopeState)
    (leftover : Bool) (ops : List PersistOp)
    (hdone : (run (persistStep lower config session renamesOpen)
      (.start lower config session loaded nowMs busCapacity (.initial stored leftover))
      ops).manager.finalizeDone = true)
    (hidle : (run (persistStep lower config session renamesOpen)
      (.start lower config session loaded nowMs busCapacity (.initial stored leftover)) ops).tick = none) :
    (∃ state ∈ (run (persistStep lower config session renamesOpen)
        (.start lower config session loaded nowMs busCapacity (.initial stored leftover)) ops).disk.load,
      currentEnded state = true) ↔
      Along (persistStep lower config session renamesOpen) (fun s op => savesInOrder s op = true)
        (.start lower config session loaded nowMs busCapacity (.initial stored leftover)) ops := by
  have hstart := @Persistence.inv_start lower config session loaded nowMs busCapacity stored leftover
  have hdisk := @Persistence.onDisk_start lower config session loaded nowMs busCapacity (.initial stored leftover)
  obtain ⟨hinv, hsettled, hlost⟩ :=
    @Persistence.run_settles lower config session renamesOpen _ hstart hdisk ops
  obtain ⟨hcreated, hsave⟩ := hinv.complete hdone
  have htick := tickSave_none hidle
  constructor
  · rintro ⟨state, hstate, hended⟩
    by_contra hnot
    obtain ⟨_, _, file, hdoomed⟩ := hlost hnot
    rw [htick] at hdoomed
    obtain ⟨stale, hload, hstale⟩ := hdoomed.load
    exact hstale (Option.mem_unique hload hstate ▸ hended)
  · intro halong
    have hsettling := (hsettled halong).settling hcreated
    rw [htick, hsave] at hsettling
    exact hsettling.settled still_none still_none

end

/-- A tick that is over before finalize starts. -/
theorem tickBeforeFinalize_persisted :
    ∃ state ∈ (run
        (persistStep id ⟨"explorer.exe", "evil.exe", true, ⟨[]⟩, ⟨"actor.exe", []⟩⟩ ⟨[60], 0, 0, true, true⟩ true)
        (.start id ⟨"explorer.exe", "evil.exe", true, ⟨[]⟩, ⟨"actor.exe", []⟩⟩ ⟨[60], 0, 0, true, true⟩ ⟨1, []⟩ 5 4
          (.initial none false))
        ([.tickCheck, .tickSnapshot] ++ List.replicate 5 .tickStep ++ [.finalize .deadline 9] ++
          List.replicate 18 (.finalizeStep true))).disk.load,
      currentEnded state = true :=
  (persisted_ended_iff id ⟨"explorer.exe", "evil.exe", true, ⟨[]⟩, ⟨"actor.exe", []⟩⟩ ⟨[60], 0, 0, true, true⟩
    true ⟨1, []⟩ 5 4 none false _ (by decide) rfl).mpr (by decide)

/-- The tick passed the flag and took its snapshot before finalize; its create comes behind
finalize's rename. -/
theorem tickAcrossFinalize_regresses :
    ∃ s, s = run
        (persistStep id ⟨"explorer.exe", "evil.exe", true, ⟨[]⟩, ⟨"actor.exe", []⟩⟩ ⟨[60], 0, 0, true, true⟩ true)
        (.start id ⟨"explorer.exe", "evil.exe", true, ⟨[]⟩, ⟨"actor.exe", []⟩⟩ ⟨[60], 0, 0, true, true⟩ ⟨1, []⟩ 5 4
          (.initial none false))
        ([.tickCheck, .tickSnapshot, .tickStep, .finalize .deadline 9] ++
          List.replicate 18 (.finalizeStep true) ++ List.replicate 4 .tickStep) ∧
      s.manager.finalizeDone = true ∧ s.tick = none ∧
      ¬ ∃ state ∈ s.disk.load, currentEnded state = true :=
  ⟨_, rfl, by decide, rfl, by decide⟩

end SecOutfall.Agent
