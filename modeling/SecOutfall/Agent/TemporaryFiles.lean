import Mathlib.Data.Finset.Basic
import SecOutfall.Agent.DropsCollector
import SecOutfall.Agent.ScreenshotIntake

/-! The temporary files of the agent's jobs: `collect_drop` (`plugins/drops_collector.rs`) with its part file and
`process_frame` (`plugins/screenshot_intake.rs`) with its staging file, on a disk.

Each opens its temporary file with `create_new`. What the file system and the uploader answer belongs to the job;
a removal of a file that is there succeeds. -/
namespace SecOutfall.Temporary
open Collector Decimal
set_option autoImplicit false

/-! ## Disk -/

/-- The files there are, and those that the job has created with `create_new`. -/
structure Disk where
  files : Finset String
  created : Finset String

namespace Disk

def createNew (disk : Disk) (path : String) (opens : Bool) : Option Disk :=
  if opens && path ∉ disk.files then some ⟨insert path disk.files, insert path disk.created⟩ else none

/-- `File::create`. -/
def create (disk : Disk) (path : String) : Disk := { disk with files := insert path disk.files }

def remove (disk : Disk) (path : String) : Disk := { disk with files := disk.files.erase path }

def rename (disk : Disk) (source target : String) : Disk :=
  { disk with files := insert target (disk.files.erase source) }

end Disk

/-- `C:`, which names the drive's current directory. -/
def isDrive (dir : String) : Bool :=
  match dir.toList with
  | [letter, ':'] => letter.isAlpha
  | _ => false

def needsSeparator (dir : String) : Bool :=
  match dir.toList.getLast? with
  | none => false
  | some last => last != '\\' && last != '/' && !isDrive dir

/-- `PathBuf::join` with a name of one component. -/
def join (dir name : String) : String := dir ++ (if needsSeparator dir then "\\" else "") ++ name

/-! ## Collect jobs -/

structure DropsConfig extends Collector.DropsConfig where
  path : String

def partName (session : UInt32) (seq : UInt64) : String := session.toNat.repr ++ "-" ++ seq.toNat.repr ++ ".part"

/-- The bytes copied, if all went well; otherwise what there is of the copy stays. -/
def copyCapped (maxBytes : UInt64) (job : Collector.Job) (destination : String) (disk : Disk) :
    Disk × Option (List UInt8) :=
  if job.opened then
    match disk.createNew destination job.created with
    | none => (disk, none)
    | some disk =>
      match copyLoop maxBytes [] job.reads with
      | none => (disk, none)
      | some content => (disk, if job.synced then some content else none)
  else (disk, none)

section
variable (config : DropsConfig) (sha256 : List UInt8 → Vector UInt8 32)

def partPath (s : Inner) (job : Collector.Job) : String := join config.path (partName job.sessionId s.nameSeq)

def persistCopy (s : Inner) (job : Collector.Job) (disk : Disk) : Inner × Disk × Option (String × UInt64) :=
  let seq := s.nameSeq
  let partPath := partPath config s job
  let s := { s with nameSeq := seq + 1 }
  if job.dirReady then
    match copyCapped config.maxSize job partPath disk with
    | (disk, none) => (s, disk.remove partPath, none)
    | (disk, some content) =>
      let hash := hash8 (sha256 content)
      if s.isDuplicate sha256 content then (s, disk.remove partPath, none)
      else
        let copyName := copyFileName job.sessionId seq hash (sanitizeExtension ((Agent.extensionOf job.source).getD ""))
        if job.renamed then
          ({ s with seenHashes := hash :: s.seenHashes, copies := s.copies ++ [⟨copyName, content⟩] },
            disk.rename partPath (join config.path copyName), some (copyName, job.copySize.getD 0))
        else (s, disk.remove partPath, none)
  else (s, disk, none)

def collectDrop (s : Inner) (job : Collector.Job) (disk : Disk) : Inner × Disk :=
  if config.limitPerSession ≤ s.collected then (s, disk)
  else
    match job.stat with
    | none => (s, disk)
    | some size =>
      if config.maxSize < size then (s, disk)
      else
        match persistCopy config sha256 s job disk with
        | (s, disk, none) => (s, disk)
        | (s, disk, some (copyName, copiedBytes)) =>
          (reportAndUpload config.toDropsConfig { s with collected := s.collected + 1 } job copyName copiedBytes, disk)

end

/-! ## Screenshot jobs -/

structure ScreenshotsConfig extends ScreenshotIntake.ScreenshotsConfig where
  path : String
  uploadUri : Option String

/-- `stagingId` is the random part of the staging name; `opened` and `written` are of the file that the job
writes, the saved or the staged one. -/
structure FrameJob where
  sessionId : UInt32
  frame : ScreenshotIntake.ScreenshotFrame
  stagingId : String
  dirReady : Bool
  opened : Bool
  written : Bool
  uploaded : Bool

/-- What frame jobs leave: the saved files and the `screenshot.uploaded` events. -/
structure Outlet where
  saved : List (String × List UInt8)
  uploaded : List UInt32
  disk : Disk

def stagingName (job : FrameJob) : String :=
  "screenshot-" ++ job.sessionId.toNat.repr ++ "-" ++ job.frame.seq.toNat.repr ++ "-" ++ job.stagingId ++ ".part"

section
variable (config : ScreenshotsConfig) (tempDir : String)

/-- Where the bytes live for the upload. -/
def localPath (s : Outlet) (job : FrameJob) : Outlet × Option String :=
  if config.save then
    let name := ScreenshotIntake.wireName job.sessionId job.frame.seq
    let path := join config.path name
    if job.dirReady && job.opened then
      let s := { s with disk := s.disk.create path }
      if job.written then ({ s with saved := s.saved ++ [(name, job.frame.jpeg)] }, some path) else (s, none)
    else (s, none)
  else if config.uploadUri.isSome then
    let path := join tempDir (stagingName job)
    match s.disk.createNew path job.opened with
    | some disk => ({ s with disk }, if job.written then some path else none)
    | none => (s, none)
  else (s, none)

def processFrame (s : Outlet) (job : FrameJob) : Outlet :=
  match localPath config tempDir s job with
  | (s, none) => s
  | (s, some path) =>
    let s :=
      match config.uploadUri with
      | none => s
      | some _ => if job.uploaded then { s with uploaded := s.uploaded ++ [job.frame.seq] } else s
    if config.save then s else { s with disk := s.disk.remove path }

end

/-! ## Jobs -/

/-- A job of either queue; a collect job with the state it finds. -/
inductive Job where
  | collect (s : Inner) (job : Collector.Job)
  | screenshot (job : FrameJob)

section
variable (drops : DropsConfig) (sha256 : List UInt8 → Vector UInt8 32) (screenshots : ScreenshotsConfig)
  (tempDir : String) (files : Finset String)

end

/-! ## Files created, removed and renamed -/

namespace Disk
variable {disk disk' : Disk} {path target : String} {opens : Bool}

end Disk

section
variable (config : DropsConfig) (sha256 : List UInt8 → Vector UInt8 32) {disk : Disk}

/-- The job as the collector's model has it: its part file can be created if it is not there already. -/
def onDisk (config : DropsConfig) (s : Inner) (disk : Disk) (job : Collector.Job) : Collector.Job :=
  { job with created := job.created && partPath config s job ∉ disk.files }

theorem copyCapped_snd (s : Inner) (job : Collector.Job) (disk : Disk) :
    (copyCapped config.maxSize job (partPath config s job) disk).2 =
      Collector.copyCapped config.maxSize (onDisk config s disk job) := by
  unfold copyCapped Collector.copyCapped onDisk Disk.createNew
  dsimp only
  cases job.opened with
  | false => simp
  | true =>
    cases hcreated : job.created && decide (partPath config s job ∉ disk.files) with
    | false => simp
    | true => cases copyLoop config.maxSize [] job.reads <;> simp

theorem persistCopy_eq (s : Inner) (job : Collector.Job) (disk : Disk) :
    ((persistCopy config sha256 s job disk).1, (persistCopy config sha256 s job disk).2.2) =
      Collector.persistCopy config.toDropsConfig sha256 s (onDisk config s disk job) := by
  have hcopied := copyCapped_snd config s job disk
  unfold persistCopy Collector.persistCopy
  rw [← hcopied]
  dsimp only
  generalize copyCapped config.maxSize job (partPath config s job) disk = copied
  obtain ⟨disk', content⟩ := copied
  by_cases hdir : job.dirReady = true
  · have hdir' : (onDisk config s disk job).dirReady = true := hdir
    simp only [if_pos hdir, if_pos hdir']
    cases content with
    | none => rfl
    | some content =>
      dsimp only
      split
      · rfl
      · by_cases hrenamed : job.renamed = true
        · have hrenamed' : (onDisk config s disk job).renamed = true := hrenamed
          simp only [if_pos hrenamed, if_pos hrenamed']
          rfl
        · have hrenamed' : ¬ (onDisk config s disk job).renamed = true := hrenamed
          simp only [if_neg hrenamed, if_neg hrenamed']
  · have hdir' : ¬ (onDisk config s disk job).dirReady = true := hdir
    simp only [if_neg hdir, if_neg hdir']

/-- Apart from the disk a job does what the collector's model says. -/
theorem collectDrop_fst (s : Inner) (job : Collector.Job) (disk : Disk) :
    (collectDrop config sha256 s job disk).1 =
      Collector.collectDrop config.toDropsConfig sha256 s (onDisk config s disk job) := by
  have hpersisted := persistCopy_eq config sha256 s job disk
  unfold collectDrop Collector.collectDrop
  rw [← hpersisted]
  dsimp only [onDisk]
  split
  · rfl
  · cases job.stat with
    | none => rfl
    | some size =>
      dsimp only
      split
      · rfl
      · generalize persistCopy config sha256 s job disk = persisted
        obtain ⟨s', disk', copied⟩ := persisted
        cases copied <;> rfl

end

/-! ## Screenshot jobs -/

section
variable {config : ScreenshotsConfig} {tempDir : String}

/-- What a job saves is what the intake's model says. -/
theorem processFrame_saved {s : Outlet} {intake : ScreenshotIntake.Intake} (h : s.saved = intake.writes)
    (job : FrameJob) : (processFrame config tempDir s job).saved =
      (ScreenshotIntake.processFrame config.toScreenshotsConfig intake
        ⟨job.frame, job.sessionId, true, job.dirReady && job.opened && job.written⟩).writes := by
  unfold processFrame localPath ScreenshotIntake.processFrame
  cases hsave : config.save with
  | true =>
    simp only [if_true, Bool.true_and]
    cases job.dirReady && job.opened with
    | false => exact h
    | true =>
      cases job.written with
      | false => exact h
      | true =>
        simp only [if_true, ← h]
        cases config.uploadUri with
        | none => rfl
        | some uri => cases job.uploaded <;> rfl
  | false =>
    simp only [Bool.false_and, Bool.false_eq_true, if_false]
    cases config.uploadUri with
    | none => exact h
    | some uri =>
      simp only [Option.isSome_some, if_true]
      cases s.disk.createNew (join tempDir (stagingName job)) job.opened with
      | none => exact h
      | some disk =>
        cases job.written with
        | false => exact h
        | true => cases job.uploaded <;> exact h

end

/-! ## What jobs leave behind -/

end SecOutfall.Temporary
