import SecOutfall.Foundations.Runs
import SecOutfall.Wire.Decode
import SecOutfall.Wire.Records

/-! Event times of the driver source (`adapters/driving/driver_event_source.rs`) against the clock
adapter (`adapters/driven/clock/shift.rs`).

Both convert between unix milliseconds and FILETIME ticks, each with an epoch constant of its own.
The source's constant is a hundred times the adapter's and beyond every tick count a signed 64-bit
kernel clock can reach, so each kernel time converts to 0. -/
namespace SecOutfall.Agent
open Runs Wire
set_option autoImplicit false

/-! ## 64-bit arithmetic -/

def i64Min : ℤ := -2 ^ 63
def i64Max : ℤ := 2 ^ 63 - 1

def saturate (v : ℤ) : ℤ := max i64Min (min v i64Max)

def checked (v : ℤ) : Option ℤ := if i64Min ≤ v ∧ v ≤ i64Max then some v else none

/-! ## Conversions -/

def unixEpochFiletime100ns : ℤ := 116444736000000000

def unixMsToFiletime (unixMs : ℤ) : Option ℤ :=
  (checked (unixMs * 10000)).bind fun ticks => checked (ticks + unixEpochFiletime100ns)

def epochDiff100ns : UInt64 := 11644473600000000000

def ticksPerMs : UInt64 := 10000

def filetimeToUnixMs (ticks : UInt64) : ℤ :=
  if ticks < epochDiff100ns then 0
  else
    let unixMs : ℤ := ((ticks - epochDiff100ns) / ticksPerMs).toNat
    if unixMs ≤ i64Max then unixMs else i64Max

/-! ## The drain loop -/

/-- The adapter while it runs: the lazy clock offset and the events handed to the inlet, each with
the record it came from. -/
structure DriverSource where
  clockOffsetMs : ℤ
  offsetCaptured : Bool
  delivered : List (Record × ℤ)
  decoded : ℕ
  skipped : ℕ

def DriverSource.new : DriverSource := ⟨0, false, [], 0, 0⟩

/-- `map_record` yields a source event for every payload but one. -/
def mapsToSource : Payload → Bool
  | .dropCaptured _ _ _ => false
  | _ => true

/-- The lazy offset: the first decoded record anchors it at the clock's reading `now`. -/
def captureOffset (now : ℤ) (source : DriverSource) (record : Record) : DriverSource :=
  if source.offsetCaptured then source
  else
    { source with
      clockOffsetMs := saturate (now - filetimeToUnixMs record.time)
      offsetCaptured := true }

def deliver (now : ℤ) (source : DriverSource) (record : Record) : DriverSource :=
  let source := captureOffset now source record
  let eventTs := saturate (filetimeToUnixMs record.time + source.clockOffsetMs)
  let source := { source with decoded := source.decoded + 1 }
  if mapsToSource record.payload then
    { source with delivered := source.delivered ++ [(record, eventTs)] }
  else source

def walkStep (now : ℤ) (walk : List UInt8 × DriverSource) : Option (List UInt8 × DriverSource) :=
  let (rest, source) := walk
  if rest.isEmpty then none
  else
    match decode rest, recordSize rest with
    | .ok record, .ok size => some (rest.drop size, deliver now source record)
    -- no boundary to resume from: the remainder is dropped
    | _, .error _ => some ([], { source with skipped := source.skipped + 1 })
    | .error _, .ok size => some (rest.drop size, { source with skipped := source.skipped + 1 })

/-- The walk over one drained buffer; every iteration takes at least a header. -/
def drainBatch (source : DriverSource) (batch : List UInt8 × ℤ) : DriverSource :=
  (runLoop (walkStep batch.2) batch.1.length (batch.1, source)).2

/-! ## The walk -/

theorem walkStep_shorter {now : ℤ} {walk walk' : List UInt8 × DriverSource}
    (h : walkStep now walk = some walk') : walk'.1.length < walk.1.length := by
  obtain ⟨rest, source⟩ := walk
  have hdrop : ∀ {size : ℕ}, recordSize rest = .ok size → (rest.drop size).length < rest.length := by
    intro size hsize
    have := recordSize_bounds hsize
    rw [List.length_drop]
    omega
  simp only [walkStep] at h
  split at h
  · cases h
  · rename_i hne
    split at h
    · rename_i hsize
      cases h
      exact hdrop hsize
    · cases h
      simpa [List.length_pos_iff] using hne
    · rename_i hsize
      cases h
      exact hdrop hsize

theorem drainBatch_ends (source : DriverSource) (batch : List UInt8 × ℤ) :
    walkStep batch.2 (runLoop (walkStep batch.2) batch.1.length (batch.1, source)) = none :=
  runLoop_breaks (fun walk : List UInt8 × DriverSource => walk.1.length)
    (fun _ _ h => walkStep_shorter h) (Nat.le_refl _)

/-! ## Timestamps of delivered events -/

/-- All delivered events carry one offset. -/
structure Stamped (source : DriverSource) : Prop where
  uncaptured : source.offsetCaptured = false → source.delivered = []
  stamped : ∀ event ∈ source.delivered,
    event.2 = saturate (filetimeToUnixMs event.1.time + source.clockOffsetMs)

theorem captureOffset_captured (now : ℤ) (source : DriverSource) (record : Record) :
    (captureOffset now source record).offsetCaptured = true := by
  unfold captureOffset
  split
  · assumption
  · rfl

theorem Stamped.captureOffset {source : DriverSource} (h : Stamped source) (now : ℤ) (record : Record) :
    Stamped (Agent.captureOffset now source record) := by
  unfold Agent.captureOffset
  split
  · exact h
  · rename_i hfresh
    have hnone := h.uncaptured (Bool.eq_false_iff.mpr hfresh)
    exact ⟨fun _ => hnone, by simp [hnone]⟩

theorem Stamped.deliver {source : DriverSource} (h : Stamped source) (now : ℤ) (record : Record) :
    Stamped (Agent.deliver now source record) := by
  have hanchored := h.captureOffset now record
  have hcaptured := captureOffset_captured now source record
  unfold Agent.deliver
  simp only
  split
  · refine ⟨fun hnot => absurd hcaptured (Bool.eq_false_iff.mp hnot), ?_⟩
    intro event hevent
    rcases List.mem_append.mp hevent with hold | hnew
    · exact hanchored.stamped event hold
    · rw [List.mem_singleton.mp hnew]
  · exact ⟨hanchored.uncaptured, hanchored.stamped⟩

theorem Stamped.walkStep {now : ℤ} {walk walk' : List UInt8 × DriverSource}
    (hstep : Agent.walkStep now walk = some walk') (h : Stamped walk.2) : Stamped walk'.2 := by
  obtain ⟨rest, source⟩ := walk
  simp only [Agent.walkStep] at hstep
  split at hstep
  · cases hstep
  · split at hstep
    · cases hstep
      exact h.deliver now _
    · cases hstep
      exact ⟨h.uncaptured, h.stamped⟩
    · cases hstep
      exact ⟨h.uncaptured, h.stamped⟩

theorem run_stamped (batches : List (List UInt8 × ℤ)) :
    Stamped (run drainBatch DriverSource.new batches) := by
  refine run_invariant (fun source batch h => ?_) ⟨fun _ => rfl, by simp [DriverSource.new]⟩ batches
  exact runLoop_invariant (I := fun walk : List UInt8 × DriverSource => Stamped walk.2)
    (fun _ _ hstep hw => hw.walkStep hstep) batch.1.length h

/-! ## What the conversion keeps -/

theorem filetimeToUnixMs_of_signed {ticks : UInt64} (h : ticks.toNat < 2 ^ 63) :
    filetimeToUnixMs ticks = 0 := by
  refine if_pos (UInt64.lt_iff_toNat_lt.mpr (h.trans ?_))
  decide

theorem unixMsToFiletime_lt {unixMs filetime : ℤ} (h : unixMsToFiletime unixMs = some filetime) :
    filetime < 2 ^ 63 := by
  obtain ⟨ticks, -, hadd⟩ := Option.bind_eq_some_iff.mp h
  unfold checked at hadd
  split at hadd
  · rename_i hrange
    obtain rfl := Option.some_inj.mp hadd
    simp only [i64Max] at hrange
    omega
  · cases hadd

/-- The conversion inverts the clock adapter's at the unix epoch only. For any two events of any
run, the difference of their timestamps is the whole milliseconds between their kernel times, up
to the floor, exactly when less than one has passed. -/
theorem event_times_faithful_iff (batches : List (List UInt8 × ℤ)) (unixMs filetime : ℤ) :
    (0 ≤ unixMs → unixMsToFiletime unixMs = some filetime →
      (filetimeToUnixMs (.ofNat filetime.toNat) = unixMs ↔ unixMs = 0)) ∧
    (∀ a ∈ (run drainBatch DriverSource.new batches).delivered,
      ∀ b ∈ (run drainBatch DriverSource.new batches).delivered,
      a.1.time.toNat ≤ b.1.time.toNat → b.1.time.toNat < 2 ^ 63 →
      let elapsedMs : ℤ := ((b.1.time.toNat - a.1.time.toNat) / 10000 : ℕ)
      (b.2 - a.2 = elapsedMs ∨ b.2 - a.2 = elapsedMs + 1 ↔
        b.1.time.toNat - a.1.time.toNat < 10000)) := by
  refine ⟨?_, ?_⟩
  · intro _ hfiletime
    have hlt := unixMsToFiletime_lt hfiletime
    have hsigned : (UInt64.ofNat filetime.toNat).toNat < 2 ^ 63 := by
      rw [UInt64.toNat_ofNat']
      exact (Nat.mod_le _ _).trans_lt (by omega)
    rw [filetimeToUnixMs_of_signed hsigned, eq_comm]
  · intro a ha b hb hle hsigned
    have hstamped := (run_stamped batches).stamped
    have hsame : a.2 = b.2 := by
      rw [hstamped a ha, hstamped b hb, filetimeToUnixMs_of_signed (hle.trans_lt hsigned),
        filetimeToUnixMs_of_signed hsigned]
    rw [hsame, sub_self]
    omega

def twoExits : List UInt8 :=
  emitProcessExited 4 0 ⟨0, 116444736010000000⟩ ++ emitProcessExited 8 0 ⟨1, 116444736020000000⟩

/-- The first second after the epoch converts to 0, and the second between two exits of one batch
is no part of their timestamps. -/
theorem one_second_lost :
    (unixMsToFiletime 1000 = some 116444736010000000 ∧
      filetimeToUnixMs 116444736010000000 = 0 ∧ filetimeToUnixMs 116444736010000000 ≠ 1000) ∧
    (run drainBatch DriverSource.new [(twoExits, 5000)]).delivered.map
        (fun event => (event.1.time, event.2)) =
      [(116444736010000000, 5000), (116444736020000000, 5000)] := by
  refine ⟨by decide, ?_⟩
  decide +kernel

end SecOutfall.Agent
