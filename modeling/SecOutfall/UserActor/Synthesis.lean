import SecOutfall.Foundations.Balance
import SecOutfall.Foundations.Utf16

/-! Input synthesis of the user actor: `adapters/driven/input/synthesis.rs`.

Every function submits batches of keyboard events, one `SendInput` each, and stops at the first that does not
insert all of its events. Several tasks submit at once, on one keyboard: between two calls of one, others come. -/
namespace SecOutfall.UserActor
open Balance Utf16
set_option autoImplicit false

/-! ## Model -/

/-- `KEYEVENTF_UNICODE` sends a UTF-16 unit. -/
inductive Stroke where
  | vk (code : UInt16)
  | unit (unit : UInt16)
  deriving DecidableEq, Repr

abbrev KeyEvent := Edge Stroke

inductive Key where
  | win | ctrl | shift | alt | escape | tab | enter | backspace | space
  | digit (d : UInt8)
  | letter (c : Char)
  | add | subtract | multiply | divide | decimal
  | raw (vk : UInt16)
  deriving DecidableEq, Repr

def vkReturn : UInt16 := 0x0D

def Key.virtualKey : Key → UInt16
  | .win => 0x5B
  | .ctrl => 0x11
  | .shift => 0x10
  | .alt => 0x12
  | .escape => 0x1B
  | .tab => 0x09
  | .enter => 0x0D
  | .backspace => 0x08
  | .space => 0x20
  | .digit d => 0x30 + (min d 9).toUInt16
  -- `as u8` keeps the low byte
  | .letter c => .ofNat (c.toUpper.toNat % 256)
  | .add => 0x6B
  | .subtract => 0x6D
  | .multiply => 0x6A
  | .divide => 0x6F
  | .decimal => 0x6E
  | .raw vk => vk

/-- Down and up, in two calls. -/
def tap (stroke : Stroke) : List (List KeyEvent) := [downs [stroke], ups [stroke]]

def pressEnter : List (List KeyEvent) := tap (.vk vkReturn)

def pressKey (key : Key) : List (List KeyEvent) := tap (.vk key.virtualKey)

def typeUnit (unit : UInt16) : List (List KeyEvent) := tap (.unit unit)

def typeChar (ch : Char) : List (List KeyEvent) :=
  if ch = '\r' then []
  else if ch = '\n' then pressKey .enter
  else if ch.toNat < 0x20 || ch.toNat == 0x7F then []
  else (charUnits ch).flatMap typeUnit

def typeText (text : String) : List (List KeyEvent) := text.toList.flatMap typeChar

/-- The last key behind the others, and back. -/
def pressHotkey (keys : List Key) : List (List KeyEvent) :=
  match keys.reverse.map fun key => Stroke.vk key.virtualKey with
  | [] => []
  | last :: modifiers => [downs (modifiers.reverse ++ [last]), ups (last :: modifiers)]

/-! ## Each action lets go -/

theorem settled_taps {β : Type} (parts : List β) (stroke : β → Stroke) :
    Settled (parts.flatMap fun part => tap (stroke part)).flatten := by
  rw [← List.flatMap_id, List.flatMap_assoc]
  refine Settled.flatMap fun part _ => ?_
  exact settled_tap (stroke part)

theorem settled_pressKey (key : Key) : Settled (pressKey key).flatten := settled_tap _

theorem settled_pressEnter : Settled pressEnter.flatten := settled_tap _

theorem settled_typeChar (ch : Char) : Settled (typeChar ch).flatten := by
  unfold typeChar
  split
  · exact settled_nil
  · split
    · exact settled_pressKey .enter
    · split
      · exact settled_nil
      · exact settled_taps (charUnits ch) .unit

theorem settled_typeText (text : String) : Settled (typeText text).flatten := by
  rw [typeText, ← List.flatMap_id, List.flatMap_assoc]
  refine Settled.flatMap fun ch _ => ?_
  rw [List.flatMap_id]
  exact settled_typeChar ch

theorem settled_pressHotkey (keys : List Key) : Settled (pressHotkey keys).flatten := by
  unfold pressHotkey
  split
  · exact settled_nil
  · rename_i last modifiers _
    have hback : (last :: modifiers).Perm (modifiers.reverse ++ [last]) := by
      rw [← List.reverse_cons]
      exact (List.reverse_perm _).symm
    simpa using settled_chord hback

/-! ## What is typed -/

/-- The units an edit control is given: Enter is a line feed to it. -/
def KeyEvent.units (e : KeyEvent) : List UInt16 :=
  if e.up then []
  else
    match e.key with
    | .unit unit => [unit]
    | .vk code => if code = vkReturn then [0x0A] else []

/-- What comes of the events on the screen. -/
def shown (events : List KeyEvent) : List Char := decodeUtf16 (events.flatMap KeyEvent.units)

def isTyped (ch : Char) : Bool := ch == '\n' || !(ch.toNat < 0x20 || ch.toNat == 0x7F)

theorem units_taps (units : List UInt16) :
    (units.flatMap typeUnit).flatten.flatMap KeyEvent.units = units := by
  induction units with
  | nil => rfl
  | cons unit units ih =>
    rw [List.flatMap_cons, List.flatten_append, List.flatMap_append, ih]
    rfl

theorem units_pressKey (key : Key) : (pressKey key).flatten.flatMap KeyEvent.units =
    (if key.virtualKey = vkReturn then ['\n'] else []).flatMap charUnits := by
  show (if key.virtualKey = vkReturn then [(0x0A : UInt16)] else []) ++ [] = _
  split
  · decide
  · rfl

theorem units_typeChar (ch : Char) :
    (typeChar ch).flatten.flatMap KeyEvent.units = ([ch].filter isTyped).flatMap charUnits := by
  unfold typeChar
  split
  · rename_i hreturn
    subst hreturn
    decide
  · split
    · rename_i hnewline
      subst hnewline
      decide
    · rename_i hnewline
      split
      · rename_i hcontrol
        have hskipped : isTyped ch = false := by simp [isTyped, hnewline, hcontrol]
        rw [List.filter_cons, hskipped]
        rfl
      · rename_i hcontrol
        have htyped : isTyped ch = true := by simp [isTyped, hcontrol]
        rw [List.filter_cons, htyped, units_taps]
        simp

/-- The text, without what is not to be typed. -/
theorem units_typeText (text : String) :
    (typeText text).flatten.flatMap KeyEvent.units = (text.toList.filter isTyped).flatMap charUnits := by
  unfold typeText
  induction text.toList with
  | nil => rfl
  | cons ch chars ih =>
    have hfilter : (ch :: chars).filter isTyped = [ch].filter isTyped ++ chars.filter isTyped := by
      rw [← List.filter_append]
      rfl
    rw [List.flatMap_cons, List.flatten_append, List.flatMap_append, units_typeChar, ih, hfilter, List.flatMap_append]

/-! ## The keyboard -/

/-- What an action has sent, and the calls it has left. -/
structure Action where
  sent : List KeyEvent
  batches : List (List KeyEvent)
  deriving DecidableEq, Repr

/-- `keyboard` has the events in the order they were inserted, each with its task; `broken` those of actions that
ended at a call that fell short, and `short` the tasks of these. -/
structure Desk (ι : Type) where
  keyboard : List (ι × KeyEvent)
  actions : ι → Option Action
  broken : List (ι × KeyEvent)
  short : List ι

section
variable {ι : Type} [DecidableEq ι]

namespace Desk

def empty : Desk ι := ⟨[], fun _ => none, [], []⟩

def setAction (desk : Desk ι) (task : ι) (action : Option Action) : Desk ι :=
  { desk with actions := Function.update desk.actions task action }

def begin (desk : Desk ι) (task : ι) (batches : List (List KeyEvent)) : Desk ι :=
  if batches = [] then desk else desk.setAction task (some ⟨[], batches⟩)

/-- One `SendInput`, that inserts so many of its events. -/
def submit (desk : Desk ι) (task : ι) (inserted : ℕ) : Desk ι :=
  match desk.actions task with
  | some ⟨sent, batch :: batches⟩ =>
    let events := batch.take inserted
    let desk := { desk with keyboard := desk.keyboard ++ events.map (task, ·) }
    if inserted = batch.length then
      desk.setAction task (if batches = [] then none else some ⟨sent ++ events, batches⟩)
    else
      { desk.setAction task none with
        broken := desk.broken ++ (sent ++ events).map (task, ·)
        short := desk.short ++ [task] }
  | _ => desk

/-- What a task has down in the middle of an action. -/
def held (desk : Desk ι) (task : ι) : List KeyEvent :=
  match desk.actions task with
  | some action => action.sent
  | none => []

def pending (desk : Desk ι) (task : ι) : List KeyEvent :=
  match desk.actions task with
  | some action => action.batches.flatten
  | none => []

end Desk

/-- A task has down what its action under way has down and what its broken actions left; as long as none of its
calls fell short, it sent what it began. -/
structure Desk.Sound (begun : ι → List KeyEvent) (desk : Desk ι) : Prop where
  counts : ∀ task key, net key (streamOf task desk.keyboard) =
    net key (streamOf task desk.broken) + net key (desk.held task)
  stuck : ∀ task key, 0 ≤ net key (streamOf task desk.broken)
  whole : ∀ task action, desk.actions task = some action →
    Settled (action.sent ++ action.batches.flatten) ∧ action.batches ≠ []
  follows : ∀ task, task ∉ desk.short → streamOf task desk.keyboard ++ desk.pending task = begun task

theorem sound_empty : (Desk.empty : Desk ι).Sound fun _ => [] :=
  ⟨fun _ _ => rfl, fun _ _ => le_refl 0, nofun, fun _ _ => rfl⟩

namespace Desk
variable {desk : Desk ι} {begun : ι → List KeyEvent} {task : ι}

theorem held_setAction (desk : Desk ι) (task other : ι) (action : Option Action) :
    (desk.setAction task action).held other =
      if other = task then (action.map Action.sent).getD [] else desk.held other := by
  unfold held setAction
  dsimp only
  by_cases hsame : other = task
  · subst hsame
    rw [Function.update_self, if_pos rfl]
    cases action <;> rfl
  · rw [Function.update_of_ne hsame, if_neg hsame]

theorem pending_setAction (desk : Desk ι) (task other : ι) (action : Option Action) :
    (desk.setAction task action).pending other =
      if other = task then (action.map fun action => action.batches.flatten).getD [] else desk.pending other := by
  unfold pending setAction
  dsimp only
  by_cases hsame : other = task
  · subst hsame
    rw [Function.update_self, if_pos rfl]
    cases action <;> rfl
  · rw [Function.update_of_ne hsame, if_neg hsame]

theorem Sound.begin (h : desk.Sound begun) (hfree : desk.actions task = none) {batches : List (List KeyEvent)}
    (hsettled : Settled batches.flatten) :
    (desk.begin task batches).Sound (Function.update begun task (begun task ++ batches.flatten)) := by
  unfold Desk.begin
  split
  · rename_i hnone
    subst hnone
    rw [List.flatten_nil, List.append_nil, Function.update_eq_self]
    exact h
  · rename_i hsome
    have hheld : desk.held task = [] := by rw [held, hfree]
    have hpending : desk.pending task = [] := by rw [pending, hfree]
    refine ⟨fun other key => ?_, h.stuck, fun other action haction => ?_, fun other hshort => ?_⟩
    · rw [held_setAction]
      have hcount := h.counts other key
      split
      · rename_i hsame
        subst hsame
        rw [hheld] at hcount
        exact hcount
      · exact hcount
    · dsimp only [setAction] at haction
      by_cases hsame : other = task
      · subst hsame
        rw [Function.update_self] at haction
        cases haction
        exact ⟨hsettled, hsome⟩
      · rw [Function.update_of_ne hsame] at haction
        exact h.whole other action haction
    · rw [pending_setAction]
      have hfollows := h.follows other hshort
      by_cases hsame : other = task
      · subst hsame
        rw [hpending, List.append_nil] at hfollows
        rw [if_pos rfl, Function.update_self, ← hfollows]
        rfl
      · rw [if_neg hsame, Function.update_of_ne hsame]
        exact hfollows

theorem Sound.submit (h : desk.Sound begun) (task : ι) (inserted : ℕ) : (desk.submit task inserted).Sound begun := by
  unfold Desk.submit
  split
  · rename_i sent batch batches haction
    obtain ⟨hsettled, -⟩ := h.whole task _ haction
    have hheld : desk.held task = sent := by rw [held, haction]
    have hpending : desk.pending task = batch ++ batches.flatten := by rw [pending, haction]; rfl
    have hstream (other : ι) (key : Stroke) :
        net key (streamOf other (desk.keyboard ++ (batch.take inserted).map (task, ·))) =
          net key (streamOf other desk.broken) +
            if task = other then net key (sent ++ batch.take inserted) else net key (desk.held other) := by
      rw [streamOf_append, streamOf_tagged, net_append, h.counts]
      split
      · rename_i hsame
        rw [← hsame, hheld, net_append]
        omega
      · rw [net_nil]
        omega
    dsimp only
    split
    · rename_i hwhole
      have hall : batch.take inserted = batch := by rw [hwhole, List.take_length]
      rw [hall] at hstream ⊢
      refine ⟨fun other key => ?_, h.stuck, fun other action hother => ?_, fun other hshort => ?_⟩
      · rw [held_setAction]
        refine (hstream other key).trans ?_
        by_cases hsame : other = task
        · rw [if_pos hsame.symm, if_pos hsame]
          split
          · rename_i hnone
            have hrest : net key (sent ++ (batch :: batches).flatten) = 0 := hsettled.rest key
            rw [hnone, List.flatten_cons, List.flatten_nil, List.append_nil, net_append] at hrest
            show _ = net key (streamOf other desk.broken) + 0
            rw [net_append]
            omega
          · rfl
        · rw [if_neg (Ne.symm hsame), if_neg hsame]
          rfl
      · dsimp only [setAction] at hother
        by_cases hsame : other = task
        · subst hsame
          rw [Function.update_self] at hother
          split at hother
          · cases hother
          · rename_i hsome
            cases hother
            refine ⟨?_, hsome⟩
            rw [List.append_assoc]
            exact hsettled
        · rw [Function.update_of_ne hsame] at hother
          exact h.whole other action hother
      · have hfollows := h.follows other hshort
        rw [pending_setAction]
        by_cases hsame : other = task
        · subst hsame
          rw [hpending] at hfollows
          rw [if_pos rfl, ← hfollows]
          show streamOf other (desk.keyboard ++ batch.map (other, ·)) ++ _ = _
          rw [streamOf_append, streamOf_tagged, if_pos rfl, List.append_assoc]
          split
          · rename_i hnone
            rw [hnone]
            rfl
          · rfl
        · rw [if_neg hsame, ← hfollows]
          show streamOf other (desk.keyboard ++ batch.map (task, ·)) ++ _ = _
          rw [streamOf_append, streamOf_tagged, if_neg (Ne.symm hsame), List.append_nil]
          rfl
    · have hfront : sent ++ batch.take inserted <+: sent ++ (batch :: batches).flatten := by
        rw [List.flatten_cons]
        exact (List.prefix_append_right_inj sent).mpr
          ((List.take_prefix inserted batch).trans (List.prefix_append batch _))
      have hbroken (other : ι) (key : Stroke) :
          net key (streamOf other (desk.broken ++ (sent ++ batch.take inserted).map (task, ·))) =
            net key (streamOf other desk.broken) +
              if task = other then net key (sent ++ batch.take inserted) else 0 := by
        rw [streamOf_append, streamOf_tagged, net_append]
        split <;> rfl
      refine ⟨fun other key => ?_, fun other key => ?_, fun other action hother => ?_, fun other hshort => ?_⟩
      · refine (hstream other key).trans ?_
        show _ = net key (streamOf other (desk.broken ++ (sent ++ batch.take inserted).map (task, ·))) +
          net key ((desk.setAction task none).held other)
        rw [hbroken, held_setAction]
        by_cases hsame : other = task
        · rw [if_pos hsame.symm, if_pos hsame.symm, if_pos hsame]
          exact (add_zero _).symm
        · rw [if_neg (Ne.symm hsame), if_neg (Ne.symm hsame), if_neg hsame, add_zero]
      · refine le_of_le_of_eq ?_ (hbroken other key).symm
        have hstuck := h.stuck other key
        have hleft := hsettled.never _ hfront key
        split <;> omega
      · by_cases hsame : other = task
        · subst hsame
          replace hother : Function.update desk.actions other none other = some action := hother
          rw [Function.update_self] at hother
          cases hother
        · replace hother : Function.update desk.actions task none other = some action := hother
          rw [Function.update_of_ne hsame] at hother
          exact h.whole other action hother
      · have hne : other ≠ task := fun hsame => hshort (by simp [hsame])
        have hold : other ∉ desk.short := fun hmem => hshort (List.mem_append_left _ hmem)
        rw [← h.follows other hold]
        show streamOf other (desk.keyboard ++ (batch.take inserted).map (task, ·)) ++
          (desk.setAction task none).pending other = _
        rw [pending_setAction, if_neg hne, streamOf_append, streamOf_tagged, if_neg (Ne.symm hne), List.append_nil]
  · exact h

end Desk

end

end SecOutfall.UserActor
