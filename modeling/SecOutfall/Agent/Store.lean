import Mathlib.Logic.Function.Basic
import Mathlib.Tactic.Common
import Mathlib.Data.Nat.Notation

/-! `JsonScopeRepository::save`, one file-system call a step, and two saves that share its paths.

A save removes the temp file, creates it anew, writes its own file and renames whatever the temp path
holds by then over the target. Files have numbers; a name that is removed or moved leaves a save its
handle. There are no faults, but a create finds a file in its way, a rename finds none, and where
open files cannot be renamed (`renamesOpen` is false) it may find one that another save still
writes. -/
namespace SecOutfall.Agent
set_option autoImplicit false

variable {α : Type}

/-! ## Model -/

/-- `content` is what a file holds once its save has written it. -/
structure Disk (α : Type) where
  content : ℕ → Option α
  next : ℕ
  target : Option ℕ
  temp : Option ℕ

/-- The state a crash may leave: perhaps a target, perhaps an unfinished temp file. -/
def Disk.initial (stored : Option α) (leftover : Bool) : Disk α where
  content file := if file = 0 then stored else none
  next := 2
  target := if stored.isSome then some 0 else none
  temp := if leftover then some 1 else none

def Disk.load (disk : Disk α) : Option α := disk.target.bind disk.content

inductive SavePoint where
  | remove
  | create
  | write (file : ℕ)
  | rename (file : ℕ)
  | returned (ok : Bool)
  deriving DecidableEq, Repr

structure Save (α : Type) where
  snapshot : α
  point : SavePoint

def Save.begin (snapshot : α) : Save α := ⟨snapshot, .remove⟩

def Save.goto (save : Save α) (point : SavePoint) : Save α := { save with point }

/-- The file it created, until it returns. -/
def Save.file (save : Save α) : Option ℕ :=
  match save.point with
  | .write file | .rename file => some file
  | _ => none

def saveStep (renamesOpen : Bool) (other : Option (Save α)) (disk : Disk α) (save : Save α) :
    Disk α × Save α :=
  match save.point with
  | .remove => ({ disk with temp := none }, save.goto .create)
  | .create =>
    match disk.temp with
    | some _ => (disk, save.goto (.returned false))
    | none =>
      ({ disk with
        content := Function.update disk.content disk.next none
        next := disk.next + 1
        temp := some disk.next }, save.goto (.write disk.next))
  | .write file =>
    ({ disk with content := Function.update disk.content file (some save.snapshot) },
      save.goto (.rename file))
  | .rename _ =>
    match disk.temp with
    | none => (disk, save.goto (.returned false))
    | some file =>
      if !renamesOpen && other.any (·.point == .write file) then (disk, save.goto (.returned false))
      else ({ disk with target := some file, temp := none }, save.goto (.returned true))
  | .returned _ => (disk, save)

/-- What one step of a save can do. -/
inductive SaveMoves (other : Option (Save α)) (disk : Disk α) (save : Save α) : Disk α → Save α → Prop where
  | removes (hpoint : save.point = .remove) :
    SaveMoves other disk save { disk with temp := none } (save.goto .create)
  | occupied (file : ℕ) (hpoint : save.point = .create) (htemp : disk.temp = some file) :
    SaveMoves other disk save disk (save.goto (.returned false))
  | creates (hpoint : save.point = .create) (htemp : disk.temp = none) :
    SaveMoves other disk save
      { disk with
        content := Function.update disk.content disk.next none
        next := disk.next + 1
        temp := some disk.next } (save.goto (.write disk.next))
  | writes (file : ℕ) (hpoint : save.point = .write file) :
    SaveMoves other disk save
      { disk with content := Function.update disk.content file (some save.snapshot) }
      (save.goto (.rename file))
  | missing (own : ℕ) (hpoint : save.point = .rename own) (htemp : disk.temp = none) :
    SaveMoves other disk save disk (save.goto (.returned false))
  | held (own file : ℕ) (hpoint : save.point = .rename own) (htemp : disk.temp = some file)
      (holder : Save α) (hother : other = some holder) (hholder : holder.point = .write file) :
    SaveMoves other disk save disk (save.goto (.returned false))
  | renames (own file : ℕ) (hpoint : save.point = .rename own) (htemp : disk.temp = some file) :
    SaveMoves other disk save { disk with target := some file, temp := none }
      (save.goto (.returned true))
  | idle (ok : Bool) (hpoint : save.point = .returned ok) : SaveMoves other disk save disk save

theorem saveStep_moves (renamesOpen : Bool) (other : Option (Save α)) (disk : Disk α) (save : Save α) :
    SaveMoves other disk save (saveStep renamesOpen other disk save).1
      (saveStep renamesOpen other disk save).2 := by
  unfold saveStep
  cases hpoint : save.point with
  | remove => exact .removes hpoint
  | create =>
    cases htemp : disk.temp with
    | none => exact .creates hpoint htemp
    | some file => exact .occupied file hpoint htemp
  | write file => exact .writes file hpoint
  | rename own =>
    cases htemp : disk.temp with
    | none => exact .missing own hpoint htemp
    | some file =>
      dsimp only
      split
      · rename_i hheld
        obtain ⟨holder, hother, hholder⟩ := (Option.any_eq_true _ _).mp (Bool.and_eq_true_iff.mp hheld).2
        exact .held own file hpoint htemp holder hother (eq_of_beq hholder)
      · exact .renames own file hpoint htemp
  | returned ok => exact .idle ok hpoint

/-- A save is at its create only from its remove, and never again at that. -/
theorem SaveMoves.forward {disk disk' : Disk α} {save save' : Save α} {other : Option (Save α)}
    (h : SaveMoves other disk save disk' save') :
    save'.point ≠ .remove ∧ (save'.point = .create ↔ save.point = .remove) := by
  cases h <;> simp_all [Save.goto]

theorem SaveMoves.snapshot {disk disk' : Disk α} {save save' : Save α} {other : Option (Save α)}
    (h : SaveMoves other disk save disk' save') : save'.snapshot = save.snapshot := by
  cases h <;> rfl

/-! ## Two saves -/

/-- The file of a save is its own, and behind the write it holds the snapshot. -/
def Save.Sound (disk : Disk α) (save : Save α) : Prop :=
  ∀ file ∈ save.file, file < disk.next ∧
    (save.point = .rename file → disk.content file = some save.snapshot)

structure Tidy (disk : Disk α) (a b : Option (Save α)) : Prop where
  temp : ∀ file ∈ disk.temp, file < disk.next
  target : ∀ file ∈ disk.target, file < disk.next
  left : ∀ save ∈ a, save.Sound disk
  right : ∀ save ∈ b, save.Sound disk
  apart : ∀ save ∈ a, ∀ other ∈ b, ∀ file ∈ save.file, file ∉ other.file

theorem Tidy.swap {disk : Disk α} {a b : Option (Save α)} (h : Tidy disk a b) : Tidy disk b a :=
  ⟨h.temp, h.target, h.right, h.left, fun save hsave other hother file hfile hfile' =>
    h.apart other hother save hsave file hfile' hfile⟩

@[simp] theorem Save.file_goto_write (save : Save α) (file : ℕ) : (save.goto (.write file)).file = some file := rfl

@[simp] theorem Save.file_goto_rename (save : Save α) (file : ℕ) : (save.goto (.rename file)).file = some file := rfl

@[simp] theorem Save.file_goto_create (save : Save α) : (save.goto .create).file = none := rfl

@[simp] theorem Save.file_goto_returned (save : Save α) (ok : Bool) : (save.goto (.returned ok)).file = none := rfl

theorem Save.file_of_write {save : Save α} {file : ℕ} (h : save.point = .write file) : save.file = some file := by
  simp [Save.file, h]

theorem Save.file_of_rename {save : Save α} {file : ℕ} (h : save.point = .rename file) :
    save.file = some file := by
  simp [Save.file, h]

theorem tidy_initial (stored : Option α) (leftover : Bool) : Tidy (Disk.initial stored leftover) none none := by
  constructor <;> simp [Disk.initial]

/-- A save that wrote nothing there is as sound as before. -/
theorem Save.Sound.mono {disk disk' : Disk α} {save : Save α} (h : save.Sound disk)
    (hnext : disk.next ≤ disk'.next)
    (hcontent : ∀ file ∈ save.file, disk'.content file = disk.content file) : save.Sound disk' :=
  fun file hfile =>
    ⟨Nat.lt_of_lt_of_le (h file hfile).1 hnext, fun hpoint => (hcontent file hfile).trans ((h file hfile).2 hpoint)⟩

/-- A save that holds no file owes nothing. -/
theorem Tidy.free {disk : Disk α} {save : Save α} {b : Option (Save α)}
    (htemp : ∀ file ∈ disk.temp, file < disk.next) (htarget : ∀ file ∈ disk.target, file < disk.next)
    (hright : ∀ other ∈ b, other.Sound disk) (hfile : save.file = none) : Tidy disk (some save) b := by
  refine ⟨htemp, htarget, ?_, hright, ?_⟩
  · rintro _ ⟨⟩ file hmem
    simp [hfile] at hmem
  · rintro _ ⟨⟩ other _ file hmem
    simp [hfile] at hmem

theorem Tidy.step {disk disk' : Disk α} {save save' : Save α} {b other : Option (Save α)}
    (h : Tidy disk (some save) b) (hmoves : SaveMoves other disk save disk' save') :
    Tidy disk' (some save') b := by
  have hsave := h.left save rfl
  cases hmoves with
  | removes hpoint =>
    exact .free (by simp) h.target h.right rfl
  | occupied file hpoint htemp => exact .free h.temp h.target h.right rfl
  | creates hpoint htemp =>
    refine ⟨by simp, fun file hfile => Nat.lt_succ_of_lt (h.target file hfile), ?_, ?_, ?_⟩
    · rintro _ ⟨⟩ file hfile
      cases Option.mem_some_iff.mp hfile
      exact ⟨Nat.lt_succ_self _, fun hpoint => nomatch hpoint⟩
    · intro other hother
      refine (h.right other hother).mono (Nat.le_succ _) fun file hfile => ?_
      exact Function.update_of_ne (Nat.ne_of_lt (h.right other hother file hfile).1) _ _
    · rintro _ ⟨⟩ other hother file hfile hfile'
      cases Option.mem_some_iff.mp hfile
      exact absurd (h.right other hother _ hfile').1 (Nat.lt_irrefl _)
  | writes file hpoint =>
    have hown := Save.file_of_write hpoint
    refine ⟨h.temp, h.target, ?_, ?_, ?_⟩
    · rintro _ ⟨⟩ file' hfile'
      cases Option.mem_some_iff.mp hfile'
      exact ⟨(hsave file hown).1, fun _ => Function.update_self _ _ _⟩
    · intro other hother
      refine (h.right other hother).mono (Nat.le_refl _) fun file' hfile' => ?_
      refine Function.update_of_ne ?_ _ _
      rintro rfl
      exact h.apart save rfl other hother _ hown hfile'
    · rintro _ ⟨⟩ other hother file' hfile'
      cases Option.mem_some_iff.mp hfile'
      exact h.apart save rfl other hother file hown
  | missing own hpoint htemp => exact .free h.temp h.target h.right rfl
  | held own file hpoint htemp holder hother hholder =>
    exact .free h.temp h.target h.right rfl
  | renames own file hpoint htemp =>
    refine .free (by simp) ?_ h.right rfl
    intro file' hfile'
    cases Option.mem_some_iff.mp hfile'
    exact h.temp file htemp
  | idle ok hpoint => exact h

/-! ## Which save the target ends with

`good` marks the snapshots that are recent enough. -/

section
variable (good : α → Prop)

/-- The file holds a good state, or the save that has it open will write one. -/
def Promised (disk : Disk α) (a b : Option (Save α)) (file : ℕ) : Prop :=
  (∃ state ∈ disk.content file, good state) ∨
    (∃ save ∈ a, save.point = .write file ∧ good save.snapshot) ∨
    ∃ save ∈ b, save.point = .write file ∧ good save.snapshot

/-- Whatever is renamed from here on is good, and something good is or will be at the target. -/
structure Settling (disk : Disk α) (a b : Option (Save α)) : Prop where
  temp : ∀ file ∈ disk.temp, Promised good disk a b file ∧
    ((∃ save ∈ a, file ∈ save.file) ∨ ∃ save ∈ b, file ∈ save.file)
  reach : (∃ file ∈ disk.target, Promised good disk a b file) ∨ disk.temp.isSome ∨
    (∃ save ∈ a, save.point = .create) ∨ ∃ save ∈ b, save.point = .create
  left : ∀ save ∈ a, ¬ good save.snapshot → ∀ file ∈ save.file, file ∉ disk.temp ∧ file ∉ disk.target
  right : ∀ save ∈ b, ¬ good save.snapshot → ∀ file ∈ save.file, file ∉ disk.temp ∧ file ∉ disk.target

/-- No name leads to a file of the save that it has not renamed itself. -/
def Unrenamed (disk : Disk α) (a : Option (Save α)) : Prop :=
  ∀ save ∈ a, ∀ file ∈ save.file, file ∉ disk.target

/-- Behind a remove, before the create that follows it: the temp file, if there is one, is the other
save's. -/
structure Cleared (disk : Disk α) (a : Option (Save α)) : Prop where
  temp : ∀ file ∈ disk.temp, ∃ save ∈ a, file ∈ save.file
  target : Unrenamed disk a

/-- The target ends with what `stale`, or a save already returned, wrote to `file`. -/
structure Doomed (disk : Disk α) (stale own : Option (Save α)) (file : ℕ) : Prop where
  temp : ∀ f ∈ disk.temp, f = file
  own : ∀ save ∈ own, file ∉ save.file ∧ save.point ≠ .remove ∧ save.point ≠ .create
  done : ∀ save ∈ stale, save.point ≠ .remove ∧ save.point ≠ .create
  fate : (∃ save ∈ stale, ¬ good save.snapshot ∧ file ∈ save.file ∧ (file ∈ disk.temp ∨ file ∈ disk.target)) ∨
    (∀ save ∈ stale, save.file = none) ∧ file ∈ disk.target ∧ ∃ state ∈ disk.content file, ¬ good state

end

section
variable {good : α → Prop} {disk disk' : Disk α} {save save' : Save α} {a b other : Option (Save α)}

theorem Promised.swap {file : ℕ} (h : Promised good disk a b file) : Promised good disk b a file :=
  h.imp_right Or.symm

theorem Settling.swap (h : Settling good disk a b) : Settling good disk b a :=
  ⟨fun file hfile => (h.temp file hfile).imp Promised.swap Or.symm,
    (h.reach.imp (fun ⟨file, hfile, hp⟩ => ⟨file, hfile, hp.swap⟩) (·.imp_right Or.symm)),
    h.right, h.left⟩

/-- A promise that is not the moving save's own write survives where the content does. -/
theorem Promised.keep {file : ℕ} (h : Promised good disk (some save) b file)
    (hsave : save.point ≠ .write file) (hcontent : disk'.content file = disk.content file) :
    Promised good disk' a b file := by
  obtain ⟨state, hstate, hgood⟩ | ⟨s, hs, hpoint, _⟩ | hother := h
  · exact .inl ⟨state, hcontent ▸ hstate, hgood⟩
  · cases Option.mem_some_iff.mp hs
    exact absurd hpoint hsave
  · exact .inr (.inr hother)

/-- A save that returns leaves the names as they are; the other save has promised the temp file. -/
theorem Settling.returns (h : Settling good disk (some save) b) (hwrite : ∀ file, save.point ≠ .write file)
    (htemp : ∀ file ∈ disk.temp, ∃ other ∈ b, file ∈ other.file) (hlinked : disk.temp = none → save.point ≠ .create)
    (ok : Bool) : Settling good disk (some (save.goto (.returned ok))) b := by
  refine ⟨fun file hfile => ⟨(h.temp file hfile).1.keep (hwrite file) rfl, .inr (htemp file hfile)⟩, ?_, ?_, h.right⟩
  · obtain ⟨file, hfile, hpromised⟩ | hlink | ⟨s, hs, hpoint⟩ | hcreate := h.reach
    · exact .inl ⟨file, hfile, hpromised.keep (hwrite file) rfl⟩
    · exact .inr (.inl hlink)
    · cases Option.mem_some_iff.mp hs
      cases hnone : disk.temp with
      | none => exact absurd hpoint (hlinked hnone)
      | some file => exact .inr (.inl rfl)
    · exact .inr (.inr (.inr hcreate))
  · rintro _ ⟨⟩ _ file hfile
    simp at hfile

theorem Settling.step (h : Settling good disk (some save) b) (htidy : Tidy disk (some save) b)
    (hcreate : save.point = .create → disk.temp = none → good save.snapshot)
    (hmoves : SaveMoves b disk save disk' save') : Settling good disk' (some save') b := by
  cases hmoves with
  | removes hpoint =>
    refine ⟨by simp, .inr (.inr (.inl ⟨_, rfl, rfl⟩)), ?_, fun s hs hstale file hfile =>
      ⟨by simp, (h.right s hs hstale file hfile).2⟩⟩
    rintro _ ⟨⟩ _ file hfile
    simp at hfile
  | occupied file hpoint htemp =>
    refine h.returns (by simp [hpoint]) ?_ (by simp [htemp]) false
    intro file' hfile'
    obtain ⟨s, hs, hown⟩ | hother := (h.temp file' hfile').2
    · cases Option.mem_some_iff.mp hs
      simp [Save.file, hpoint] at hown
    · exact hother
  | creates hpoint htemp =>
    refine ⟨?_, .inr (.inl rfl), ?_, ?_⟩
    · rintro file hfile
      cases Option.mem_some_iff.mp hfile
      exact ⟨.inr (.inl ⟨_, rfl, rfl, hcreate hpoint htemp⟩), .inl ⟨_, rfl, rfl⟩⟩
    · rintro _ ⟨⟩ hstale
      exact absurd (hcreate hpoint htemp) hstale
    · intro s hs hstale file hfile
      refine ⟨?_, (h.right s hs hstale file hfile).2⟩
      intro hnew
      cases Option.mem_some_iff.mp hnew
      exact Nat.lt_irrefl _ (htidy.right s hs _ hfile).1
  | writes file hpoint =>
    have hown := Save.file_of_write hpoint
    -- a linked file of this save is a good one
    have hpromised {file' : ℕ} (hlinked : file' ∈ disk.temp ∨ file' ∈ disk.target)
        (hp : Promised good disk (some save) b file') :
        Promised good { disk with content := Function.update disk.content file (some save.snapshot) }
          (some (save.goto (.rename file))) b file' := by
      by_cases hsame : file' = file
      · subst hsame
        by_cases hgood : good save.snapshot
        · exact .inl ⟨_, Function.update_self _ _ _, hgood⟩
        · obtain ⟨htemp, htarget⟩ := h.left save rfl hgood file' hown
          exact absurd hlinked (not_or.mpr ⟨htemp, htarget⟩)
      · refine hp.keep ?_ (Function.update_of_ne hsame _ _)
        rw [hpoint]
        rintro ⟨⟩
        exact hsame rfl
    refine ⟨fun file' hfile' => ⟨hpromised (.inl hfile') (h.temp file' hfile').1, ?_⟩, ?_, ?_, h.right⟩
    · refine (h.temp file' hfile').2.imp_left ?_
      rintro ⟨_, ⟨⟩, hfile⟩
      exact ⟨_, rfl, hown.symm.trans hfile⟩
    · obtain ⟨file', hfile', hp⟩ | hlink | ⟨s, hs, hcreate⟩ | hother := h.reach
      · exact .inl ⟨file', hfile', hpromised (.inr hfile') hp⟩
      · exact .inr (.inl hlink)
      · cases Option.mem_some_iff.mp hs
        simp [hpoint] at hcreate
      · exact .inr (.inr (.inr hother))
    · rintro _ ⟨⟩ hstale file' hfile'
      exact h.left save rfl hstale file' (hown.trans hfile')
  | missing own hpoint htemp =>
    exact h.returns (by simp [hpoint]) (by simp [htemp]) (by simp [hpoint]) false
  | held own file hpoint htemp holder hother hholder =>
    refine h.returns (by simp [hpoint]) ?_ (by simp [hpoint]) false
    intro file' hfile'
    have hsame : file = file' := Option.some.inj (htemp.symm.trans hfile')
    exact ⟨holder, hother, hsame ▸ Save.file_of_write hholder⟩
  | renames own file hpoint htemp =>
    refine ⟨by simp, .inl ⟨file, rfl, (h.temp file htemp).1.keep (by simp [hpoint]) rfl⟩, ?_, ?_⟩
    · rintro _ ⟨⟩ _ file' hfile'
      simp at hfile'
    · intro s hs hstale file' hfile'
      refine ⟨by simp, fun hnew => ?_⟩
      cases Option.mem_some_iff.mp hnew
      exact (h.right s hs hstale file hfile').1 htemp
  | idle ok hpoint => exact h

/-- A save that is between two saves, or not yet at its create. -/
def Still (a : Option (Save α)) : Prop := ∀ save ∈ a, save.file = none ∧ save.point ≠ .create

theorem Tidy.still (h : Tidy disk a b) {a' : Option (Save α)} (ha' : Still a') : Tidy disk a' b := by
  refine ⟨h.temp, h.target, fun save hsave file hfile => ?_, h.right, fun save hsave _ _ file hfile => ?_⟩
  · simp [(ha' save hsave).1] at hfile
  · simp [(ha' save hsave).1] at hfile

theorem Settling.still (h : Settling good disk a b) (ha : Still a) {a' : Option (Save α)} (ha' : Still a') :
    Settling good disk a' b := by
  have hpromised {file : ℕ} (hp : Promised good disk a b file) : Promised good disk a' b file := by
    refine hp.imp_right fun hwrite => .inr (hwrite.resolve_left ?_)
    rintro ⟨save, hsave, hpoint, _⟩
    exact absurd (Save.file_of_write hpoint) (by simp [(ha save hsave).1])
  refine ⟨fun file hfile => ⟨hpromised (h.temp file hfile).1, .inr ((h.temp file hfile).2.resolve_left ?_)⟩,
    ?_, fun save hsave _ file hfile => ?_, h.right⟩
  · rintro ⟨save, hsave, hown⟩
    simp [(ha save hsave).1] at hown
  · obtain ⟨file, hfile, hp⟩ | hlink | ⟨save, hsave, hcreate⟩ | hother := h.reach
    · exact .inl ⟨file, hfile, hpromised hp⟩
    · exact .inr (.inl hlink)
    · exact absurd hcreate (ha save hsave).2
    · exact .inr (.inr (.inr hother))
  · simp [(ha' save hsave).1] at hfile

/-- With both saves returned a good state is at the target. -/
theorem Settling.settled (h : Settling good disk a b) (ha : Still a) (hb : Still b) :
    ∃ state ∈ disk.load, good state := by
  have htemp : disk.temp = none := by
    cases hlink : disk.temp with
    | none => rfl
    | some file =>
      obtain ⟨s, hs, hown⟩ | ⟨s, hs, hown⟩ := (h.temp file hlink).2
      · simp [(ha s hs).1] at hown
      · simp [(hb s hs).1] at hown
  obtain ⟨file, htarget, hpromised⟩ | hlink | ⟨s, hs, hcreate⟩ | ⟨s, hs, hcreate⟩ := h.reach
  · obtain ⟨state, hstate, hgood⟩ | ⟨s, hs, hpoint, _⟩ | ⟨s, hs, hpoint, _⟩ := hpromised
    · exact ⟨state, by simp [Disk.load, Option.mem_def.mp htarget, Option.mem_def.mp hstate], hgood⟩
    · exact absurd (Save.file_of_write hpoint) (by simp [(ha s hs).1])
    · exact absurd (Save.file_of_write hpoint) (by simp [(hb s hs).1])
  · simp [htemp] at hlink
  · exact absurd hcreate (ha s hs).2
  · exact absurd hcreate (hb s hs).2

theorem Unrenamed.still (ha : Still a) : Unrenamed disk a := by
  intro save hsave file hfile
  simp [(ha save hsave).1] at hfile

theorem Cleared.still (h : Cleared disk a) (ha : Still a) {a' : Option (Save α)} (ha' : Still a') :
    Cleared disk a' := by
  refine ⟨fun file hfile => ?_, .still ha'⟩
  obtain ⟨save, hsave, hown⟩ := h.temp file hfile
  simp [(ha save hsave).1] at hown

theorem Unrenamed.free (hfile : save.file = none) : Unrenamed disk (some save) := by
  rintro _ ⟨⟩ file hmem
  simp [hfile] at hmem

theorem Unrenamed.step (h : Unrenamed disk (some save)) (htidy : Tidy disk (some save) b)
    (hmoves : SaveMoves other disk save disk' save') : Unrenamed disk' (some save') := by
  cases hmoves with
  | creates hpoint htemp =>
    rintro _ ⟨⟩ file hfile htarget
    cases Option.mem_some_iff.mp hfile
    exact Nat.lt_irrefl _ (htidy.target _ htarget)
  | writes file hpoint =>
    rintro _ ⟨⟩ file' hfile'
    exact h save rfl file' ((Save.file_of_write hpoint).trans hfile')
  | idle ok hpoint => exact h
  | _ => exact .free rfl

theorem Cleared.step (h : Cleared disk (some save)) (htidy : Tidy disk (some save) b)
    (hown : ∀ s ∈ b, s.file = none) (hmoves : SaveMoves b disk save disk' save') :
    Cleared disk' (some save') := by
  refine ⟨?_, h.target.step htidy hmoves⟩
  cases hmoves with
  | removes hpoint => simp
  | occupied file hpoint htemp =>
    obtain ⟨s, hs, hfile⟩ := h.temp file htemp
    cases Option.mem_some_iff.mp hs
    simp [Save.file, hpoint] at hfile
  | creates hpoint htemp =>
    intro file hfile
    exact ⟨_, rfl, hfile⟩
  | writes file hpoint =>
    intro file' hfile'
    obtain ⟨s, hs, hfile⟩ := h.temp file' hfile'
    cases Option.mem_some_iff.mp hs
    exact ⟨_, rfl, (Save.file_of_write hpoint).symm.trans hfile⟩
  | missing own hpoint htemp => simp [htemp]
  | held own file hpoint htemp holder hother hholder =>
    have hnone := hown holder hother
    simp [Save.file, hholder] at hnone
  | renames own file hpoint htemp => simp
  | idle ok hpoint => exact h.temp

/-- The remove of a save clears the temp path. -/
theorem Unrenamed.clear (h : Unrenamed disk a) (hpoint : save.point = .remove)
    (hmoves : SaveMoves other disk save disk' save') : Cleared disk' a ∧ save'.point = .create := by
  cases hmoves with
  | removes _ => exact ⟨⟨by simp, h⟩, rfl⟩
  | _ => simp_all

theorem Save.point_of_file {file : ℕ} (h : file ∈ save.file) :
    save.point = .write file ∨ save.point = .rename file := by
  obtain ⟨snapshot, point⟩ := save
  cases point <;> simp_all [Save.file]

/-- The create of a good save settles it, if no stale temp file is in its way. -/
theorem Cleared.create (h : Cleared disk a) (htidy : Tidy disk a (some save)) (hgood : good save.snapshot)
    (hpoint : save.point = .create) (hway : disk.temp ≠ none → ∀ other ∈ a, good other.snapshot)
    (hmoves : SaveMoves other disk save disk' save') : Settling good disk' a (some save') := by
  cases hmoves with
  | occupied file _ htemp =>
    have hgoods := hway (by simp [htemp])
    refine ⟨fun file' hfile' => ?_, .inr (.inl (by simp [htemp])),
      fun s hs hstale => absurd (hgoods s hs) hstale, fun s hs hstale => ?_⟩
    · obtain ⟨s, hs, hfile⟩ := h.temp file' hfile'
      refine ⟨?_, .inl ⟨s, hs, hfile⟩⟩
      obtain hwrite | hrename := Save.point_of_file hfile
      · exact .inr (.inl ⟨s, hs, hwrite, hgoods s hs⟩)
      · exact .inl ⟨_, (htidy.left s hs file' hfile).2 hrename, hgoods s hs⟩
    · cases Option.mem_some_iff.mp hs
      exact absurd hgood hstale
  | creates _ htemp =>
    refine ⟨fun file hfile => ?_, .inr (.inl rfl), fun s hs _ file hfile => ⟨fun hnew => ?_, ?_⟩,
      fun s hs hstale => ?_⟩
    · cases Option.mem_some_iff.mp hfile
      exact ⟨.inr (.inr ⟨_, rfl, rfl, hgood⟩), .inr ⟨_, rfl, rfl⟩⟩
    · cases Option.mem_some_iff.mp hnew
      exact Nat.lt_irrefl _ (htidy.left s hs _ hfile).1
    · exact h.target s hs file hfile
    · cases Option.mem_some_iff.mp hs
      exact absurd hgood hstale
  | _ => simp_all

/-- A create that finds a stale save's temp file leaves the target to that save. -/
theorem Cleared.create_doomed (h : Cleared disk a) (hpoint : save.point = .create) {file : ℕ}
    (htemp : disk.temp = some file) (hstale : ∀ other ∈ a, ¬ good other.snapshot)
    (hmoves : SaveMoves other disk save disk' save') : Doomed good disk' a (some save') file := by
  cases hmoves with
  | occupied _ _ _ =>
    obtain ⟨s, hs, hfile⟩ := h.temp file htemp
    refine ⟨fun f hf => Option.some.inj (hf.symm.trans htemp), ?_, fun t ht => ?_,
      .inl ⟨s, hs, hstale s hs, hfile, .inl htemp⟩⟩
    · rintro _ ⟨⟩
      simp [Save.goto, Save.file]
    · cases Option.mem_unique hs ht
      obtain hwrite | hrename := Save.point_of_file hfile
      · simp [hwrite]
      · simp [hrename]
  | _ => simp_all

/-- A stale save that creates the temp file behind the other's create has the target. -/
theorem doomed_of_create (htidy : Tidy disk (some save) b) (hpoint : save.point = .create)
    (htemp : disk.temp = none) (hstale : ¬ good save.snapshot)
    (hown : ∀ s ∈ b, s.point ≠ .remove ∧ s.point ≠ .create)
    (hmoves : SaveMoves other disk save disk' save') : Doomed good disk' (some save') b disk.next := by
  cases hmoves with
  | creates _ _ =>
    refine ⟨fun f hf => (Option.some.inj hf).symm, fun s hs => ⟨fun hfile => ?_, hown s hs⟩, ?_,
      .inl ⟨_, rfl, hstale, rfl, .inl rfl⟩⟩
    · exact Nat.lt_irrefl _ (htidy.right s hs _ hfile).1
    · rintro _ ⟨⟩
      simp [Save.goto]
  | _ => simp_all

theorem Doomed.step_stale {file : ℕ} (h : Doomed good disk (some save) b file)
    (htidy : Tidy disk (some save) b) (hmoves : SaveMoves b disk save disk' save') :
    Doomed good disk' (some save') b file := by
  have hdone := h.done save rfl
  -- a stale save that returns has its file at the target
  have hreturns (ok : Bool) {own : ℕ} (hpoint : save.point = .rename own) {disk' : Disk α}
      (hcontent : disk'.content = disk.content) (htemp : ∀ f ∈ disk'.temp, f = file)
      (htarget : file ∈ disk'.target) : Doomed good disk' (some (save.goto (.returned ok))) b file := by
    refine ⟨htemp, h.own, ?_, .inr ⟨?_, htarget, ?_⟩⟩
    · rintro _ ⟨⟩
      simp [Save.goto]
    · rintro _ ⟨⟩
      rfl
    · obtain ⟨s, hs, hstale, hfile, _⟩ | ⟨hfree, _⟩ := h.fate
      · cases Option.mem_some_iff.mp hs
        have hown : own = file := Option.some.inj ((Save.file_of_rename hpoint).symm.trans hfile)
        subst hown
        exact ⟨_, hcontent ▸ (htidy.left save rfl own hfile).2 hpoint, hstale⟩
      · have hnone := hfree save rfl
        simp [Save.file_of_rename hpoint] at hnone
  cases hmoves with
  | removes hpoint => exact absurd hpoint hdone.1
  | occupied _ hpoint _ => exact absurd hpoint hdone.2
  | creates hpoint _ => exact absurd hpoint hdone.2
  | writes f hpoint =>
    obtain ⟨s, hs, hstale, hfile, hlinked⟩ | ⟨hfree, _⟩ := h.fate
    · cases Option.mem_some_iff.mp hs
      refine ⟨h.temp, h.own, ?_, .inl ⟨_, rfl, hstale, (Save.file_of_write hpoint).symm.trans hfile, hlinked⟩⟩
      rintro _ ⟨⟩
      simp [Save.goto]
    · have hnone := hfree save rfl
      simp [Save.file_of_write hpoint] at hnone
  | missing own hpoint htemp =>
    refine hreturns false hpoint rfl (by simp [htemp]) ?_
    obtain ⟨_, _, _, _, hlinked⟩ | ⟨_, htarget, _⟩ := h.fate
    · exact hlinked.resolve_left (by simp [htemp])
    · exact htarget
  | held own f hpoint htemp holder hother hholder =>
    obtain rfl := h.temp f htemp
    exact absurd (Save.file_of_write hholder) (h.own holder hother).1
  | renames own f hpoint htemp =>
    obtain rfl := h.temp f htemp
    exact hreturns true hpoint rfl (by simp) rfl
  | idle ok hpoint => exact h

theorem Doomed.step_own {file : ℕ} (h : Doomed good disk a (some save) file)
    (hmoves : SaveMoves a disk save disk' save') : Doomed good disk' a (some save') file := by
  obtain ⟨hapart, hremove, hcreate⟩ := h.own save rfl
  have hreturned (ok : Bool) : ∀ s ∈ some (save.goto (.returned ok)),
      file ∉ s.file ∧ s.point ≠ .remove ∧ s.point ≠ .create := by
    rintro _ ⟨⟩
    simp [Save.goto, Save.file]
  cases hmoves with
  | removes hpoint => exact absurd hpoint hremove
  | occupied _ hpoint _ => exact absurd hpoint hcreate
  | creates hpoint _ => exact absurd hpoint hcreate
  | writes f hpoint =>
    have hne : file ≠ f := by
      rintro rfl
      exact hapart (Save.file_of_write hpoint)
    refine ⟨h.temp, ?_, h.done, h.fate.imp_right fun ⟨hfree, htarget, state, hstate, hstale⟩ =>
      ⟨hfree, htarget, state, (Function.update_of_ne hne _ _).trans hstate, hstale⟩⟩
    rintro _ ⟨⟩
    exact ⟨fun hfile => hapart ((Save.file_of_write hpoint).trans hfile), by simp [Save.goto], by simp [Save.goto]⟩
  | missing own hpoint htemp => exact ⟨h.temp, hreturned false, h.done, h.fate⟩
  | held own f hpoint htemp holder hother hholder => exact ⟨h.temp, hreturned false, h.done, h.fate⟩
  | renames own f hpoint htemp =>
    obtain rfl := h.temp f htemp
    refine ⟨by simp, hreturned true, h.done, h.fate.imp ?_ ?_⟩
    · rintro ⟨s, hs, hstale, hfile, _⟩
      exact ⟨s, hs, hstale, hfile, .inr rfl⟩
    · rintro ⟨hfree, _, hstale⟩
      exact ⟨hfree, rfl, hstale⟩
  | idle ok hpoint => exact h

theorem Doomed.still {file : ℕ} (h : Doomed good disk a b file) (ha : Still a) : Doomed good disk none b file := by
  refine ⟨h.temp, h.own, by simp, .inr (h.fate.elim ?_ fun hfate => ⟨by simp, hfate.2⟩)⟩
  rintro ⟨save, hsave, _, hfile, _⟩
  simp [(ha save hsave).1] at hfile

theorem Doomed.still_own {b' : Option (Save α)} {file : ℕ} (h : Doomed good disk a b file) (hb' : Still b')
    (hremove : ∀ save ∈ b', save.point ≠ .remove) : Doomed good disk a b' file := by
  refine ⟨h.temp, fun save hsave => ?_, h.done, h.fate⟩
  obtain ⟨hfile, hcreate⟩ := hb' save hsave
  exact ⟨by simp [hfile], hremove save hsave, hcreate⟩

/-- What a doomed target is loaded as, once the stale save has returned. -/
theorem Doomed.load {file : ℕ} (h : Doomed good disk none b file) : ∃ state ∈ disk.load, ¬ good state := by
  obtain ⟨_, hnone, _⟩ | ⟨_, htarget, state, hstate, hstale⟩ := h.fate
  · simp at hnone
  · exact ⟨state, by simp [Disk.load, Option.mem_def.mp htarget, Option.mem_def.mp hstate], hstale⟩

end

end SecOutfall.Agent
