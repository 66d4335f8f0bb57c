import SecOutfall.Foundations.Decimal
import SecOutfall.Foundations.Runs

/-! Screenshots as they come into the agent: `plugins/screenshot_intake.rs`.

The worker handles the queued frames in their order. What the scope state, the queue and the file system answer
belongs to the arrival of a frame. -/
namespace SecOutfall.ScreenshotIntake
open Decimal Runs
set_option autoImplicit false

/-! ## Model -/

structure ScreenshotFrame where
  seq : UInt32
  jpeg : List UInt8
  deriving DecidableEq, Repr

structure ScreenshotsConfig where
  captureEnabled : Bool
  save : Bool
  maxPerSession : UInt32

/-- `session` is the current one, `queued` whether the queue takes the frame, `writable` whether its directory
is there to write to. -/
structure Arrival where
  frame : ScreenshotFrame
  session : UInt32
  queued : Bool
  writable : Bool

/-- `received` are the `screenshot.received` events, `writes` the files written so far. -/
structure Intake where
  accepted : UInt32
  received : List (UInt32 × UInt32 × ℕ)
  writes : List (String × List UInt8)

def wireName (session seq : UInt32) : String :=
  "screenshot-" ++ session.toNat.repr ++ "-" ++ seq.toNat.repr ++ ".jpeg"

section
variable (config : ScreenshotsConfig)

def processFrame (s : Intake) (arrival : Arrival) : Intake :=
  if config.save && arrival.writable then
    { s with writes := s.writes ++ [(wireName arrival.session arrival.frame.seq, arrival.frame.jpeg)] }
  else s

def pre (s : Intake) (arrival : Arrival) : Intake :=
  if !config.captureEnabled then s
  else
    let s := { s with accepted := s.accepted + 1 }
    if config.maxPerSession < s.accepted then s
    else
      let s := { s with
        received := s.received ++ [(arrival.session, arrival.frame.seq, arrival.frame.jpeg.length)] }
      if arrival.queued then processFrame config s arrival else s

/-- The files of a boot's arrivals. -/
def saved (arrivals : List Arrival) : List (String × List UInt8) := (run (pre config) ⟨0, [], []⟩ arrivals).writes

end

/-! ## Names -/

theorem wireName_toList (session seq : UInt32) : (wireName session seq).toList = "screenshot-".toList ++
    (Nat.toDigits 10 session.toNat ++ '-' :: (Nat.toDigits 10 seq.toNat ++ ".jpeg".toList)) := by
  simp [wireName, String.toList_append, Nat.toList_repr]

theorem wireName_inj {session session' seq seq' : UInt32} (h : wireName session seq = wireName session' seq') :
    session = session' ∧ seq = seq' := by
  have hlist := congrArg String.toList h
  rw [wireName_toList, wireName_toList] at hlist
  obtain ⟨hsession, hseq⟩ := append_dash_inj (dash_notMem_toDigits _) (dash_notMem_toDigits _)
    (List.append_cancel_left hlist)
  exact ⟨UInt32.toNat_inj.mp (toDigits_inj hsession), UInt32.toNat_inj.mp (toDigits_inj (List.append_cancel_right hseq))⟩

/-! ## Files -/

variable (config : ScreenshotsConfig)

/-- A frame is written at most once. -/
theorem pre_writes (s : Intake) (arrival : Arrival) : (pre config s arrival).writes = s.writes ∨
    (pre config s arrival).writes =
      s.writes ++ [(wireName arrival.session arrival.frame.seq, arrival.frame.jpeg)] := by
  unfold pre processFrame
  split
  · exact .inl rfl
  · dsimp only
    split
    · exact .inl rfl
    · split
      · split
        · exact .inr rfl
        · exact .inl rfl
      · exact .inl rfl

theorem run_writes (s : Intake) (arrivals : List Arrival) : ∃ kept : List Arrival, kept.Sublist arrivals ∧
    (run (pre config) s arrivals).writes =
      s.writes ++ kept.map fun arrival => (wireName arrival.session arrival.frame.seq, arrival.frame.jpeg) := by
  induction arrivals generalizing s with
  | nil => exact ⟨[], List.Sublist.slnil, (List.append_nil _).symm⟩
  | cons arrival arrivals ih =>
    obtain ⟨kept, hkept, hwrites⟩ := ih (pre config s arrival)
    rw [run_cons, hwrites]
    obtain hnone | hone := pre_writes config s arrival
    · exact ⟨kept, hkept.cons arrival, by rw [hnone]⟩
    · exact ⟨arrival :: kept, hkept.cons_cons arrival, by rw [hone, List.append_assoc]; rfl⟩

variable {config}

/-- Frames with numbers of their own are written under names of their own. -/
theorem saved_nodup {arrivals : List Arrival} (h : (arrivals.map (·.frame.seq)).Nodup) :
    ((saved config arrivals).map (·.1)).Nodup := by
  obtain ⟨kept, hkept, hwrites⟩ := run_writes config ⟨0, [], []⟩ arrivals
  rw [saved, hwrites, List.nil_append, List.map_map]
  have hseqs : (kept.map (·.frame.seq)).Nodup := (hkept.map _).nodup h
  rw [List.Nodup, List.pairwise_map] at hseqs ⊢
  exact hseqs.imp fun hne heq => hne (wireName_inj heq).2

end SecOutfall.ScreenshotIntake
