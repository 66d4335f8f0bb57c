import SecOutfall.Agent.SessionManager
import SecOutfall.Foundations.Signed64

/-! The configuration's times on the way to the clock: `AgentConfig::validate` (`crates/protocol/src/config.rs`),
the clock shifts of `plugins/session_manager.rs` and the deadline of `adapters/driving/scheduler.rs`, in the
64-bit arithmetic of the code.

The shift at the finalize is plain arithmetic, the one at the study's start saturates, and the deadline's
addition panics. -/
namespace SecOutfall.Agent.Clock
open Signed64
set_option autoImplicit false

/-! ## Configuration -/

inductive EventVerbosity where
  | none
  -- `Partial`
  | partly
  | full
  deriving DecidableEq, Repr

inductive LaunchMechanism where
  | token | schedTask
  deriving DecidableEq, Repr

structure BrokerConfig where
  uri : String
  controlChannel : String
  eventChannel : String
  verbosity : EventVerbosity

structure StudyConfig where
  uptimes : List UInt64
  scopePath : String

structure DropsConfig where
  path : String
  maxSize : UInt64
  limitPerSession : UInt32

structure ScreenshotsConfig where
  path : String
  maxPerSession : UInt32

structure TimeConfig where
  timestamp : UInt64
  offsetSecs : Int64

structure PlatformConfig where
  launchMechanism : LaunchMechanism
  runasUtilityPath : String

structure TelemetryConfig where
  sentryEnabled : Bool
  dsn : String
  logDir : String

structure DebugConfig where
  skipRebootAndShutdown : Bool
  skipTimeManipulation : Bool

/-- `AgentConfig`, as far as `validate` or the clock reads it. -/
structure AgentConfig where
  broker : BrokerConfig
  targetPath : String
  study : StudyConfig
  drops : DropsConfig
  screenshots : ScreenshotsConfig
  time : TimeConfig
  platform : PlatformConfig
  userActorPath : String
  telemetry : TelemetryConfig
  debug : DebugConfig

inductive ConfigError where
  | validation (problems : String)
  deriving DecidableEq, Repr

namespace AgentConfig

def problem (violated : Bool) (text : String) : List String := if violated then [text] else []

def problems (config : AgentConfig) : List String :=
  problem (config.targetPath == "") "target.path must not be empty" ++
  problem (config.broker.uri == "") "broker.uri must not be empty" ++
  problem (config.broker.controlChannel == "") "broker.control_channel must not be empty" ++
  problem (config.broker.eventChannel == "") "broker.event_channel must not be empty" ++
  problem (config.broker.verbosity == .partly)
    "broker.verbosity `partial` is not implemented yet; use `full` or `none`" ++
  problem (config.drops.maxSize == 0) "drops.max_size must be positive" ++
  problem (config.drops.limitPerSession == 0) "drops.limit_per_session must be positive" ++
  problem (config.screenshots.maxPerSession == 0) "screenshots.max_per_session must be positive" ++
  problem (config.userActorPath == "") "user_actor.path must not be empty" ++
  problem (config.platform.launchMechanism == .schedTask && config.platform.runasUtilityPath == "")
    "platform.runas_utility_path must not be empty for sched_task" ++
  problem (config.telemetry.sentryEnabled && config.telemetry.dsn == "")
    "telemetry.dsn must not be empty when sentry_enabled" ++
  problem (config.study.scopePath == "") "study.scope_path must not be empty" ++
  problem (config.drops.path == "") "drops.path must not be empty" ++
  problem (config.screenshots.path == "") "screenshots.path must not be empty" ++
  problem (config.telemetry.logDir == "") "telemetry.log_dir must not be empty"

def validate (config : AgentConfig) : Except ConfigError Unit :=
  if config.problems = [] then .ok () else .error (.validation ("; ".intercalate config.problems))

/-- What `builder.rs` hands to the session manager. -/
def session (config : AgentConfig) : SessionConfig :=
  ⟨config.study.uptimes, config.time.timestamp, config.time.offsetSecs.toInt, config.debug.skipTimeManipulation,
    config.debug.skipRebootAndShutdown⟩

/-- `validate` reads no time: whatever the times, a configuration that it accepts stays accepted. -/
theorem validate_times (config : AgentConfig) (time : TimeConfig) (uptimes : List UInt64) (debug : DebugConfig) :
    { config with time, study.uptimes := uptimes, debug }.validate = config.validate := rfl

end AgentConfig

/-! ## Instants -/

/-- A monotonic instant: seconds in a signed 64-bit count. -/
structure Instant where
  secs : Int64
  nanos : UInt32
  nanos_lt : nanos.toNat < 1000000000

structure Duration where
  secs : UInt64
  nanos : UInt32
  nanos_lt : nanos.toNat < 1000000000

/-- `Duration::from_secs`. -/
def Duration.fromSecs (secs : UInt64) : Duration := ⟨secs, 0, by decide⟩

/-- `checked_add`: the seconds, then the nanoseconds with a carry. -/
def Instant.checkedAdd (instant : Instant) (duration : Duration) : Option Instant :=
  match checkedAddUnsigned instant.secs duration.secs with
  | none => none
  | some secs =>
    let nanos := instant.nanos.toNat + duration.nanos.toNat
    if hcarry : nanos < 1000000000 then
      some ⟨secs, .ofNat nanos, by rw [UInt32.toNat_ofNat']; omega⟩
    else
      match checkedAddUnsigned secs 1 with
      | none => none
      | some secs =>
        some ⟨secs, .ofNat (nanos - 1000000000), by
          have hinstant := instant.nanos_lt
          have hduration := duration.nanos_lt
          rw [UInt32.toNat_ofNat']
          omega⟩

/-! ## The clock's targets -/

/-- `shift_clock_at_finalize`: the target it sets, if it does. -/
def finalizeTarget (config : AgentConfig) (nowMs : Int64) : Option Int64 :=
  if config.debug.skipTimeManipulation || config.time.offsetSecs == 0 then none
  else some (nowMs + config.time.offsetSecs * 1000)

/-- `apply_study_start_timestamp`: the target it sets and the offset it reports. -/
def studyStart (config : AgentConfig) (sessionCount : ℕ) (realNow : Int64) : Option (Int64 × Int64) :=
  if sessionCount != 1 || config.debug.skipTimeManipulation || config.time.timestamp == 0 then none
  else
    let targetMs := saturatingMul ((tryFrom config.time.timestamp).getD 0) 1000
    some (targetMs, (targetMs - realNow) / 1000)

def scheduledSecs (state : ScopeState) : Option UInt64 :=
  state.currentSession.bind SessionRecord.scheduledDurationSecs

inductive Deadline where
  | parked
  | sleepUntil (deadline : Instant)
  -- "overflow when adding duration to instant"
  | panicked

/-- `deadline_task`, up to its wait. -/
def deadlineTask (state : ScopeState) (now : Instant) : Deadline :=
  match scheduledSecs state with
  | none => .parked
  | some scheduled =>
    match now.checkedAdd (.fromSecs scheduled) with
    | some deadline => .sleepUntil deadline
    | none => .panicked

/-! ## Exact times -/

/-- A boot: the state it loads, the clock when it opens the session, at the study's start and at the finalize,
and the monotonic clock. -/
structure Boot where
  loaded : ScopeState
  openedMs : ℤ
  realNow : Int64
  nowMs : Int64
  now : Instant

def Boot.opened (boot : Boot) (config : AgentConfig) : ScopeState :=
  openSessionIfNeeded config.session boot.openedMs boot.loaded

/-- Every operation has its exact result. -/
structure ExactClock (config : AgentConfig) (boot : Boot) : Prop where
  finalize : ∀ target, finalizeTarget config boot.nowMs = some target →
    (config.time.offsetSecs * 1000).toInt = config.time.offsetSecs.toInt * 1000 ∧
      target.toInt = boot.nowMs.toInt + config.time.offsetSecs.toInt * 1000
  studyStart : ∀ target offset,
    studyStart config (boot.opened config).sessions.length boot.realNow = some (target, offset) →
    target.toInt = config.time.timestamp.toNat * 1000 ∧
      (target - boot.realNow).toInt = config.time.timestamp.toNat * 1000 - boot.realNow.toInt ∧
      offset.toInt = (config.time.timestamp.toNat * 1000 - boot.realNow.toInt).tdiv 1000
  deadline : ∀ scheduled, scheduledSecs (boot.opened config) = some scheduled →
    ∃ deadline, deadlineTask (boot.opened config) boot.now = .sleepUntil deadline ∧
      deadline.secs.toInt = boot.now.secs.toInt + scheduled.toNat ∧ deadline.nanos = boot.now.nanos

/-- The bounds that `validate` does not check, for a clock that is touched at all. -/
structure InRange (config : AgentConfig) (boot : Boot) : Prop where
  finalize : config.debug.skipTimeManipulation = false → config.time.offsetSecs ≠ 0 →
    -9223372036854775 ≤ config.time.offsetSecs.toInt ∧ config.time.offsetSecs.toInt ≤ 9223372036854775 ∧
      Fits (boot.nowMs.toInt + config.time.offsetSecs.toInt * 1000)
  studyStart : boot.loaded.sessions = [] → config.debug.skipTimeManipulation = false → config.time.timestamp ≠ 0 →
    config.time.timestamp.toNat ≤ 9223372036854775 ∧
      config.time.timestamp.toNat * 1000 - boot.realNow.toInt < 9223372036854775808
  deadline : ∀ scheduled, config.study.uptimes[(sessionIdOf boot.loaded.sessions.length).toNat]? = some scheduled →
    boot.now.secs.toInt + scheduled.toNat < 9223372036854775808

/-! ## One session -/

section
variable (config : AgentConfig) (boot : Boot)

theorem length_opened : (boot.opened config).sessions.length = boot.loaded.sessions.length + 1 := by
  unfold Boot.opened openSessionIfNeeded
  split <;> simp

theorem scheduledSecs_opened : scheduledSecs (boot.opened config) =
    config.study.uptimes[(sessionIdOf boot.loaded.sessions.length).toNat]? := by
  unfold scheduledSecs ScopeState.currentSession Boot.opened openSessionIfNeeded
  split <;> simp [AgentConfig.session]

end

/-! ## The three times -/

theorem toInt_thousand : (1000 : Int64).toInt = 1000 := rfl

theorem finalizeTarget_exact_iff (offset nowMs : Int64) :
    ((offset * 1000).toInt = offset.toInt * 1000 ∧ (nowMs + offset * 1000).toInt = nowMs.toInt + offset.toInt * 1000) ↔
      -9223372036854775 ≤ offset.toInt ∧ offset.toInt ≤ 9223372036854775 ∧
        Fits (nowMs.toInt + offset.toInt * 1000) := by
  have hproduct := toInt_mul_eq_iff offset 1000
  rw [toInt_thousand] at hproduct
  have hbounds : Fits (offset.toInt * 1000) ↔ -9223372036854775 ≤ offset.toInt ∧ offset.toInt ≤ 9223372036854775 := by
    unfold Fits
    omega
  rw [hproduct, hbounds]
  constructor
  · rintro ⟨hbound, hsum⟩
    have heq := hproduct.mpr (hbounds.mpr hbound)
    have hfits := fits_toInt (nowMs + offset * 1000)
    rw [hsum] at hfits
    exact ⟨hbound.1, hbound.2, hfits⟩
  · rintro ⟨hlow, hhigh, hfits⟩
    have heq := hproduct.mpr (hbounds.mpr ⟨hlow, hhigh⟩)
    have hsum := toInt_add_eq_iff nowMs (offset * 1000)
    rw [heq] at hsum
    exact ⟨⟨hlow, hhigh⟩, hsum.mpr hfits⟩

/-- The saturated product: what the session manager's model has for it. -/
theorem toInt_studyTarget (timestamp : UInt64) :
    (saturatingMul ((tryFrom timestamp).getD 0) 1000).toInt = studyStartMs timestamp := by
  rw [toInt_saturatingMul, toInt_thousand, tryFrom, studyStartMs]
  by_cases hlt : timestamp.toNat < 9223372036854775808
  · have hfits : Fits timestamp.toNat := ⟨by omega, by omega⟩
    rw [if_pos hfits, if_pos hlt, Option.getD_some, toInt_ofInt hfits]
    unfold saturated
    omega
  · have hfits : ¬ Fits timestamp.toNat := fun h => by
      have hhigh := h.2
      omega
    rw [if_neg hfits, if_neg hlt]
    rfl

theorem studyStart_exact_iff {timestamp : UInt64} (hset : timestamp ≠ 0) (realNow : Int64) {target : Int64}
    (htarget : target.toInt = studyStartMs timestamp) :
    (target.toInt = timestamp.toNat * 1000 ∧
        (target - realNow).toInt = timestamp.toNat * 1000 - realNow.toInt ∧
        ((target - realNow) / 1000).toInt = (timestamp.toNat * 1000 - realNow.toInt).tdiv 1000) ↔
      timestamp.toNat ≤ 9223372036854775 ∧ timestamp.toNat * 1000 - realNow.toInt < 9223372036854775808 := by
  have hpos : timestamp.toNat ≠ 0 := fun h => hset (UInt64.toNat_inj.mp h)
  have hexact : target.toInt = timestamp.toNat * 1000 ↔ timestamp.toNat ≤ 9223372036854775 := by
    rw [htarget, studyStartMs]
    split <;> omega
  have hquotient : ((target - realNow) / 1000).toInt = (target - realNow).toInt.tdiv 1000 :=
    Int64.toInt_div_of_ne_right _ _ (by decide)
  have hdifference := toInt_sub_eq_iff target realNow
  have hnow := realNow.toInt_lt
  rw [hexact]
  constructor
  · rintro ⟨hle, hsub, -⟩
    have hhigh := (target - realNow).toInt_lt
    rw [hsub] at hhigh
    exact ⟨hle, hhigh⟩
  · rintro ⟨hle, hlt⟩
    rw [hexact.mpr hle] at hdifference
    have hsub := hdifference.mpr ⟨by omega, hlt⟩
    rw [hquotient, hsub]
    exact ⟨hle, rfl, rfl⟩

/-- The seconds alone decide. -/
theorem checkedAdd_fromSecs (now : Instant) (scheduled : UInt64) :
    (∃ deadline, now.checkedAdd (.fromSecs scheduled) = some deadline ∧
      deadline.secs.toInt = now.secs.toInt + scheduled.toNat ∧ deadline.nanos = now.nanos) ↔
      now.secs.toInt + scheduled.toNat < 9223372036854775808 := by
  have hlow := now.secs.le_toInt
  constructor
  · rintro ⟨deadline, -, hsecs, -⟩
    have hhigh := deadline.secs.toInt_lt
    omega
  · intro hlt
    have hfits : Fits (now.secs.toInt + scheduled.toNat) := ⟨by omega, hlt⟩
    have hnanos := now.nanos_lt
    have hsum : now.nanos.toNat + (Duration.fromSecs scheduled).nanos.toNat = now.nanos.toNat := Nat.add_zero _
    have hsecs : checkedAddUnsigned now.secs (Duration.fromSecs scheduled).secs =
        some (.ofInt (now.secs.toInt + scheduled.toNat)) := if_pos hfits
    have hcarry : now.nanos.toNat + (Duration.fromSecs scheduled).nanos.toNat < 1000000000 := by
      rw [hsum]
      exact hnanos
    refine ⟨⟨.ofInt (now.secs.toInt + scheduled.toNat), now.nanos, hnanos⟩, ?_, toInt_ofInt hfits, rfl⟩
    unfold Instant.checkedAdd
    rw [hsecs]
    simp only
    rw [dif_pos hcarry]
    simp only [hsum, UInt32.ofNat_toNat]

/-! ## A boot's times -/

section
variable (config : AgentConfig) (boot : Boot)

theorem finalize_exact_iff :
    (∀ target, finalizeTarget config boot.nowMs = some target →
      (config.time.offsetSecs * 1000).toInt = config.time.offsetSecs.toInt * 1000 ∧
        target.toInt = boot.nowMs.toInt + config.time.offsetSecs.toInt * 1000) ↔
      (config.debug.skipTimeManipulation = false → config.time.offsetSecs ≠ 0 →
        -9223372036854775 ≤ config.time.offsetSecs.toInt ∧ config.time.offsetSecs.toInt ≤ 9223372036854775 ∧
          Fits (boot.nowMs.toInt + config.time.offsetSecs.toInt * 1000)) := by
  have hiff := finalizeTarget_exact_iff config.time.offsetSecs boot.nowMs
  unfold finalizeTarget
  by_cases hskipped : (config.debug.skipTimeManipulation || config.time.offsetSecs == 0) = true
  · rw [if_pos hskipped]
    refine iff_of_true (fun _ h => by cases h) fun hskip hoffset => ?_
    simp [hskip, hoffset] at hskipped
  · rw [if_neg hskipped]
    have hshifts : config.debug.skipTimeManipulation = false ∧ config.time.offsetSecs ≠ 0 := by
      simpa using hskipped
    constructor
    · exact fun h _ _ => hiff.mp (h _ rfl)
    · rintro h target ⟨⟩
      exact hiff.mpr (h hshifts.1 hshifts.2)

theorem studyStart_iff :
    (∀ target offset, studyStart config (boot.opened config).sessions.length boot.realNow = some (target, offset) →
      target.toInt = config.time.timestamp.toNat * 1000 ∧
        (target - boot.realNow).toInt = config.time.timestamp.toNat * 1000 - boot.realNow.toInt ∧
        offset.toInt = (config.time.timestamp.toNat * 1000 - boot.realNow.toInt).tdiv 1000) ↔
      (boot.loaded.sessions = [] → config.debug.skipTimeManipulation = false → config.time.timestamp ≠ 0 →
        config.time.timestamp.toNat ≤ 9223372036854775 ∧
          config.time.timestamp.toNat * 1000 - boot.realNow.toInt < 9223372036854775808) := by
  have hcount : ((boot.opened config).sessions.length != 1) = false ↔ boot.loaded.sessions = [] := by
    rw [length_opened]
    simp
  unfold studyStart
  by_cases hskipped : ((boot.opened config).sessions.length != 1 || config.debug.skipTimeManipulation ||
      config.time.timestamp == 0) = true
  · rw [if_pos hskipped]
    refine iff_of_true (fun _ _ h => by cases h) fun hfirst hskip hset => ?_
    simp [hcount.mpr hfirst, hskip, hset] at hskipped
  · rw [if_neg hskipped]
    simp only [Bool.or_eq_true, not_or, Bool.not_eq_true, beq_eq_false_iff_ne] at hskipped
    have htarget := toInt_studyTarget config.time.timestamp
    generalize saturatingMul ((tryFrom config.time.timestamp).getD 0) 1000 = targetMs at htarget ⊢
    have hiff := studyStart_exact_iff hskipped.2 boot.realNow htarget
    constructor
    · exact fun h _ _ _ => hiff.mp (h targetMs ((targetMs - boot.realNow) / 1000) rfl)
    · intro h target offset heq
      simp only [Option.some.injEq, Prod.mk.injEq] at heq
      rw [← heq.1, ← heq.2]
      exact hiff.mpr (h (hcount.mp hskipped.1.1) hskipped.1.2 hskipped.2)

theorem deadline_iff :
    (∀ scheduled, scheduledSecs (boot.opened config) = some scheduled →
      ∃ deadline, deadlineTask (boot.opened config) boot.now = .sleepUntil deadline ∧
        deadline.secs.toInt = boot.now.secs.toInt + scheduled.toNat ∧ deadline.nanos = boot.now.nanos) ↔
      ∀ scheduled, config.study.uptimes[(sessionIdOf boot.loaded.sessions.length).toNat]? = some scheduled →
        boot.now.secs.toInt + scheduled.toNat < 9223372036854775808 := by
  rw [← scheduledSecs_opened config boot]
  refine forall_congr' fun scheduled => imp_congr_right fun hscheduled => ?_
  rw [← checkedAdd_fromSecs, deadlineTask, hscheduled]
  simp only
  cases boot.now.checkedAdd (.fromSecs scheduled) with
  | none => simp
  | some deadline => simp

/-- All times of a boot are exact exactly if they are within bounds that `validate` leaves unchecked. -/
theorem exactClock_iff : ExactClock config boot ↔ InRange config boot := by
  constructor
  · exact fun h => ⟨(finalize_exact_iff config boot).mp h.finalize, (studyStart_iff config boot).mp h.studyStart,
      (deadline_iff config boot).mp h.deadline⟩
  · exact fun h => ⟨(finalize_exact_iff config boot).mpr h.finalize, (studyStart_iff config boot).mpr h.studyStart,
      (deadline_iff config boot).mpr h.deadline⟩

end

/-- The shipped defaults with a target, and these times. -/
def configWith (time : TimeConfig) (uptimes : List UInt64) : AgentConfig where
  broker := ⟨"nats://127.0.0.1:4222", "control", "events", .full⟩
  targetPath := "C:\\t.exe"
  study := ⟨uptimes, "C:\\ProgramData\\SecOutfall\\scope.json"⟩
  drops := ⟨"C:\\ProgramData\\SecOutfall\\Drops", 10485760, 30⟩
  screenshots := ⟨"C:\\ProgramData\\SecOutfall\\Screenshots", 30⟩
  time
  platform := ⟨.token, "windows-run-as-system.exe"⟩
  userActorPath := "secoutfall-user-actor.exe"
  telemetry := ⟨false, "", "C:\\ProgramData\\SecOutfall\\logs"⟩
  debug := ⟨false, false⟩

def firstBoot : Boot := ⟨⟨1, []⟩, 0, 0, 0, ⟨0, 0, by decide⟩⟩

/-- Three accepted configurations: an offset whose milliseconds wrap, a timestamp that is none, an uptime that
panics. -/
theorem acceptedTimes_inexact :
    ((configWith ⟨0, 9223372036854776⟩ []).validate = .ok () ∧
        ¬ ExactClock (configWith ⟨0, 9223372036854776⟩ []) firstBoot) ∧
      ((configWith ⟨9223372036854775808, 0⟩ []).validate = .ok () ∧
        ¬ ExactClock (configWith ⟨9223372036854775808, 0⟩ []) firstBoot) ∧
      (configWith ⟨0, 0⟩ [9223372036854775808]).validate = .ok () ∧
        ¬ ExactClock (configWith ⟨0, 0⟩ [9223372036854775808]) firstBoot := by
  refine ⟨⟨by decide +kernel, fun h => ?_⟩, ⟨by decide +kernel, fun h => ?_⟩, by decide +kernel, fun h => ?_⟩
  · exact absurd (h.finalize (0 + 9223372036854776 * 1000) (by decide +kernel)).1 (by decide +kernel)
  · exact absurd (h.studyStart 0 0 (by decide +kernel)).1 (by decide +kernel)
  · obtain ⟨deadline, hdeadline, -⟩ := h.deadline 9223372036854775808 (by decide +kernel)
    cases hdeadline

end SecOutfall.Agent.Clock
