import Mathlib.Algebra.Order.BigOperators.Group.Finset
import Mathlib.Data.Fintype.Option
import SecOutfall.Foundations.Runs
import SecOutfall.UserActor.Synthesis

/-! The scripted activities and the reactive plugin of the user actor, on one keyboard: `plugins/scripted.rs`,
`plugins/activities.rs` and `plugins/reactive.rs`.

Each activity runs its script on a task of its own, the consumer of foreground changes is another. Launches, delays,
config pushes and `SendInput` calls come in any order. -/
namespace SecOutfall.UserActor
open Balance Runs
set_option autoImplicit false

/-! ## Activities -/

inductive ActivityStep where
  | launch (program : String) (args : List String)
  | wait (ms : UInt64)
  | typeText (text : String)
  | key (key : Key)
  | hotkey (keys : List Key)
  deriving DecidableEq, Repr

def ActivityStep.batches : ActivityStep → List (List KeyEvent)
  | .launch _ _ => []
  | .wait _ => []
  | .typeText text => UserActor.typeText text
  | .key pressed => pressKey pressed
  | .hotkey keys => pressHotkey keys

/-- Where the task of an activity is, with what is left of the pass; `resting` is the delay between two passes. -/
inductive Loop where
  | idle
  | ready (rest : List ActivityStep)
  | launching (rest : List ActivityStep)
  | delaying (rest : List ActivityStep)
  | resting
  | ended
  deriving DecidableEq, Repr

/-- `done` and `current` are the steps that were begun, pass by pass. -/
structure Activity where
  steps : List ActivityStep
  stopped : Bool
  paused : Bool
  loop : Loop
  done : List (List ActivityStep)
  current : List ActivityStep
  deriving DecidableEq, Repr

def ActivityStep.next (rest : List ActivityStep) : ActivityStep → Loop
  | .launch _ _ => .launching rest
  | .wait _ => .delaying rest
  | _ => .ready rest

namespace Activity

def new (steps : List ActivityStep) : Activity := ⟨steps, false, false, .idle, [], []⟩

/-- At most one loop for a control. -/
def start (a : Activity) : Activity :=
  match a.loop with
  | .idle => { a with loop := .ready a.steps }
  | _ => a

/-- The task goes on, with what it has to submit. -/
def advance (a : Activity) : Activity × List (List KeyEvent) :=
  match a.loop with
  | .ready (step :: rest) =>
    if a.stopped then ({ a with loop := .ended }, [])
    -- parked
    else if a.paused then (a, [])
    else ({ a with current := a.current ++ [step], loop := step.next rest }, step.batches)
  | .ready [] => ({ a with loop := .resting }, [])
  -- the select prefers neither: a stop may end a delay before its time
  | .delaying rest => (if a.stopped then { a with loop := .ready rest } else a, [])
  | .resting => (if a.stopped then { a with loop := .ended } else a, [])
  | _ => (a, [])

/-- A launch that fails aborts the pass. -/
def launched (a : Activity) (ok : Bool) : Activity :=
  match a.loop with
  | .launching rest => { a with loop := if ok then .ready rest else .resting }
  | _ => a

/-- A delay is over. -/
def waited (a : Activity) : Activity :=
  match a.loop with
  | .delaying rest => { a with loop := .ready rest }
  | .resting =>
    if a.stopped then { a with loop := .ended }
    else { a with done := a.done ++ [a.current], current := [], loop := .ready a.steps }
  | _ => a

/-- The steps that were begun. -/
def begunSteps (a : Activity) : List ActivityStep := a.done.flatten ++ a.current

def begun (a : Activity) : List KeyEvent := a.begunSteps.flatMap fun step => step.batches.flatten

end Activity

/-! ## The actor -/

def pressMinInterval : ℕ := 1000

/-- In milliseconds. -/
def pressAllowed (lastPress : Option ℕ) (now : ℕ) : Bool := lastPress.all fun last => pressMinInterval ≤ now - last

/-- `none` is the consumer of the foreground changes. -/
abbrev Task (n : ℕ) := Option (Fin n)

/-- `reactive` is of the config that was pushed, `presses` are the instants of the reactive presses. -/
structure Actor (n : ℕ) where
  activities : Fin n → Activity
  started : Bool
  reactive : Option Bool
  listening : Bool
  lastPress : Option ℕ
  presses : List ℕ
  desk : Desk (Task n)

inductive ActorOp (n : ℕ) where
  | welcome (scripted reactive : Bool)
  | shutdown
  | pause (i : Fin n)
  | resume (i : Fin n)
  | advance (i : Fin n)
  | launched (i : Fin n) (ok : Bool)
  | waited (i : Fin n)
  | foreground (now : ℕ)
  | submit (task : Task n) (inserted : ℕ)

section
variable {n : ℕ}

namespace Actor

def boot (scripts : Fin n → List ActivityStep) : Actor n :=
  ⟨fun i => .new (scripts i), false, none, true, none, [], .empty⟩

def setActivity (s : Actor n) (i : Fin n) (a : Activity) : Actor n :=
  { s with activities := Function.update s.activities i a }

@[simp] theorem setActivity_self (s : Actor n) (i : Fin n) (a : Activity) : (s.setActivity i a).activities i = a :=
  Function.update_self ..

@[simp] theorem setActivity_of_ne (s : Actor n) {i j : Fin n} (h : j ≠ i) (a : Activity) :
    (s.setActivity i a).activities j = s.activities j :=
  Function.update_of_ne h ..

/-- `start_all`, once. -/
def startAll (s : Actor n) : Actor n :=
  if s.started then s else { s with started := true, activities := fun i => (s.activities i).start }

/-- `stop_all`, and the abort of the consumer: a press under way goes on, on its blocking thread. -/
def stopAll (s : Actor n) : Actor n :=
  { s with activities := fun i => { s.activities i with stopped := true }, listening := false }

def foregroundChanged (s : Actor n) (now : ℕ) : Actor n :=
  if s.listening && (s.desk.actions none).isNone && s.reactive = some true && pressAllowed s.lastPress now then
    { s with lastPress := some now, presses := s.presses ++ [now], desk := s.desk.begin none pressEnter }
  else s

end Actor

def actorStep (s : Actor n) : ActorOp n → Actor n
  | .welcome scripted reactive =>
    let s := { s with reactive := some reactive }
    if scripted then s.startAll else s
  | .shutdown => s.stopAll
  | .pause i => s.setActivity i { s.activities i with paused := true }
  | .resume i => s.setActivity i { s.activities i with paused := false }
  | .advance i =>
    match s.desk.actions (some i) with
    | some _ => s
    | none =>
      let (a, batches) := (s.activities i).advance
      { s.setActivity i a with desk := s.desk.begin (some i) batches }
  | .launched i ok => s.setActivity i ((s.activities i).launched ok)
  | .waited i => s.setActivity i (s.activities i).waited
  | .foreground now => s.foregroundChanged now
  | .submit task inserted => { s with desk := s.desk.submit task inserted }

/-! ## Passes -/

/-- A whole pass of the script, or one that a launch aborted. -/
def Pass (steps pass : List ActivityStep) : Prop :=
  pass = steps ∨ pass <+: steps ∧ ∃ program args, pass.getLast? = some (.launch program args)

/-- What is begun and what is left make up the script. -/
def Loop.Fits (steps current : List ActivityStep) : Loop → Prop
  | .idle => current = []
  | .ready rest => current ++ rest = steps
  | .launching rest => current ++ rest = steps ∧ ∃ program args, current.getLast? = some (.launch program args)
  | .delaying rest => current ++ rest = steps
  | .resting => Pass steps current
  | .ended => current <+: steps

structure Activity.Sound (script : List ActivityStep) (a : Activity) : Prop where
  steps : a.steps = script
  loop : a.loop.Fits script a.current
  done : ∀ pass ∈ a.done, Pass script pass

variable {steps : List ActivityStep} {a : Activity}

theorem Pass.starts {pass : List ActivityStep} (h : Pass steps pass) : pass <+: steps := by
  obtain rfl | ⟨hstarts, -⟩ := h
  · exact List.prefix_refl pass
  · exact hstarts

namespace Activity.Sound

theorem current_starts (h : a.Sound steps) : a.current <+: steps := by
  have hloop := h.loop
  cases ha : a.loop with
  | idle =>
    rw [ha] at hloop
    rw [show a.current = [] from hloop]
    exact List.nil_prefix
  | ready rest =>
    rw [ha] at hloop
    exact ⟨rest, hloop⟩
  | launching rest =>
    rw [ha] at hloop
    exact ⟨rest, hloop.1⟩
  | delaying rest =>
    rw [ha] at hloop
    exact ⟨rest, hloop⟩
  | resting =>
    rw [ha] at hloop
    exact Pass.starts hloop
  | ended =>
    rw [ha] at hloop
    exact hloop

theorem start (h : a.Sound steps) : a.start.Sound steps := by
  unfold Activity.start
  cases ha : a.loop with
  | idle =>
    have hnone : a.current = [] := by
      have hloop := h.loop
      rwa [ha] at hloop
    refine ⟨h.steps, ?_, h.done⟩
    show a.current ++ a.steps = steps
    rw [hnone, h.steps]
    rfl
  | _ => exact h

theorem advance (h : a.Sound steps) : a.advance.1.Sound steps ∧
    a.advance.1.begunSteps.flatMap (·.batches.flatten) = a.begun ++ a.advance.2.flatten := by
  have hloop := h.loop
  have hstarts := h.current_starts
  have hquiet : a.begunSteps.flatMap (·.batches.flatten) = a.begun ++ ([] : List (List KeyEvent)).flatten :=
    (List.append_nil _).symm
  unfold Activity.advance
  cases ha : a.loop with
  | idle => exact ⟨h, hquiet⟩
  | launching rest => exact ⟨h, hquiet⟩
  | ended => exact ⟨h, hquiet⟩
  | delaying rest =>
    rw [ha] at hloop
    dsimp only
    split
    · exact ⟨⟨h.steps, hloop, h.done⟩, hquiet⟩
    · exact ⟨h, hquiet⟩
  | resting =>
    dsimp only
    split
    · exact ⟨⟨h.steps, hstarts, h.done⟩, hquiet⟩
    · exact ⟨h, hquiet⟩
  | ready rest =>
    rw [ha] at hloop
    cases rest with
    | nil =>
      have hwhole : a.current = steps := (List.append_nil _).symm.trans hloop
      exact ⟨⟨h.steps, .inl hwhole, h.done⟩, hquiet⟩
    | cons step rest =>
      dsimp only
      split
      · exact ⟨⟨h.steps, hstarts, h.done⟩, hquiet⟩
      · split
        · exact ⟨h, hquiet⟩
        · have hnext : (a.current ++ [step]) ++ rest = steps := by
            rw [List.append_assoc]
            exact hloop
          refine ⟨⟨h.steps, ?_, h.done⟩, ?_⟩
          · cases step with
            | launch program args => exact ⟨hnext, program, args, List.getLast?_concat ..⟩
            | wait ms => exact hnext
            | typeText text => exact hnext
            | key key => exact hnext
            | hotkey keys => exact hnext
          · show (a.done.flatten ++ (a.current ++ [step])).flatMap _ = (a.done.flatten ++ a.current).flatMap _ ++ _
            rw [← List.append_assoc, List.flatMap_append, List.flatMap_singleton]

theorem launched (h : a.Sound steps) (ok : Bool) : (a.launched ok).Sound steps := by
  unfold Activity.launched
  cases ha : a.loop with
  | launching rest =>
    have hloop := h.loop
    rw [ha] at hloop
    obtain ⟨hrest, hlaunch⟩ := hloop
    refine ⟨h.steps, ?_, h.done⟩
    cases ok with
    | true => exact hrest
    | false => exact .inr ⟨⟨rest, hrest⟩, hlaunch⟩
  | _ => exact h

theorem waited (h : a.Sound steps) : a.waited.Sound steps := by
  unfold Activity.waited
  have hloop := h.loop
  cases ha : a.loop with
  | delaying rest =>
    rw [ha] at hloop
    exact ⟨h.steps, hloop, h.done⟩
  | resting =>
    rw [ha] at hloop
    dsimp only
    split
    · exact ⟨h.steps, h.current_starts, h.done⟩
    · refine ⟨h.steps, ?_, fun pass hmem => ?_⟩
      · exact h.steps
      · obtain hmem | hmem := List.mem_append.mp hmem
        · exact h.done pass hmem
        · rw [List.mem_singleton.mp hmem]
          exact hloop
  | _ => exact h

end Activity.Sound

/-! ## What a step types -/

def enters (key : Key) : List Char := if key.virtualKey = vkReturn then ['\n'] else []

/-- What a step puts on the screen. -/
def ActivityStep.text : ActivityStep → List Char
  | .launch _ _ => []
  | .wait _ => []
  | .typeText text => text.toList.filter isTyped
  | .key pressed => enters pressed
  | .hotkey keys => keys.flatMap enters

theorem units_downs (keys : List Key) :
    (downs (keys.map fun key => Stroke.vk key.virtualKey)).flatMap KeyEvent.units =
      (keys.flatMap enters).flatMap Utf16.charUnits := by
  induction keys with
  | nil => rfl
  | cons key keys ih =>
    rw [List.flatMap_cons, List.flatMap_append, ← ih, ← show _ = (enters key).flatMap Utf16.charUnits from
      units_pressKey key]
    show _ ++ _ = (_ ++ []) ++ _
    rw [List.append_nil]
    rfl

theorem units_ups (strokes : List Stroke) : (ups strokes).flatMap KeyEvent.units = [] := by
  rw [List.flatMap_eq_nil_iff]
  intro e hmem
  obtain ⟨stroke, -, rfl⟩ := List.mem_map.mp hmem
  rfl

theorem units_pressHotkey (keys : List Key) :
    (pressHotkey keys).flatten.flatMap KeyEvent.units = (keys.flatMap enters).flatMap Utf16.charUnits := by
  rw [← units_downs]
  unfold pressHotkey
  have hback : keys.map (fun key => Stroke.vk key.virtualKey) =
      (keys.reverse.map fun key => Stroke.vk key.virtualKey).reverse := by
    rw [← List.map_reverse, List.reverse_reverse]
  rw [hback]
  cases keys.reverse.map fun key => Stroke.vk key.virtualKey with
  | nil => rfl
  | cons last modifiers =>
    rw [List.reverse_cons, List.flatten_cons, List.flatMap_append, List.flatten_singleton, units_ups, List.append_nil]

theorem ActivityStep.units (step : ActivityStep) :
    step.batches.flatten.flatMap KeyEvent.units = step.text.flatMap Utf16.charUnits := by
  cases step with
  | launch program args => rfl
  | wait ms => rfl
  | typeText text => exact units_typeText text
  | key pressed => exact units_pressKey pressed
  | hotkey keys => exact units_pressHotkey keys

theorem ActivityStep.settled (step : ActivityStep) : Settled step.batches.flatten := by
  cases step with
  | launch program args => exact settled_nil
  | wait ms => exact settled_nil
  | typeText text => exact settled_typeText text
  | key pressed => exact settled_pressKey pressed
  | hotkey keys => exact settled_pressHotkey keys

theorem shown_begun (a : Activity) : shown a.begun = a.begunSteps.flatMap ActivityStep.text := by
  unfold shown Activity.begun
  rw [List.flatMap_assoc]
  simp only [ActivityStep.units]
  rw [← List.flatMap_assoc, Utf16.decodeUtf16_encoded]

/-! ## Runs -/

def Actor.begun (s : Actor n) : Task n → List KeyEvent
  | some i => (s.activities i).begun
  | none => s.presses.flatMap fun _ => pressEnter.flatten

structure Actor.Sound (scripts : Fin n → List ActivityStep) (s : Actor n) : Prop where
  desk : s.desk.Sound s.begun
  activities : ∀ i, (s.activities i).Sound (scripts i)
  apart : s.presses.IsChain (· + pressMinInterval ≤ ·)
  last : s.lastPress = s.presses.getLast?

variable {scripts : Fin n → List ActivityStep} {s : Actor n}

theorem sound_boot (scripts : Fin n → List ActivityStep) : (Actor.boot scripts).Sound scripts := by
  refine ⟨?_, fun i => ⟨rfl, rfl, nofun⟩, List.IsChain.nil, rfl⟩
  have hnone : (Actor.boot scripts).begun = fun _ => [] := by
    funext task
    cases task <;> rfl
  rw [hnone]
  exact sound_empty

/-- The activities move without a step of theirs. -/
theorem Actor.Sound.moves (h : s.Sound scripts) {activities : Fin n → Activity}
    (hsound : ∀ i, (activities i).Sound (scripts i)) (hbegun : ∀ i, (activities i).begunSteps = (s.activities i).begunSteps)
    {s' : Actor n} (hactivities : s'.activities = activities) (hdesk : s'.desk = s.desk) (hpresses : s'.presses = s.presses)
    (hlast : s'.lastPress = s.lastPress) : s'.Sound scripts := by
  have hsame : s'.begun = s.begun := by
    funext task
    cases task with
    | none => rw [Actor.begun, Actor.begun, hpresses]
    | some i => rw [Actor.begun, Actor.begun, Activity.begun, Activity.begun, hactivities, hbegun]
  refine ⟨?_, hactivities ▸ hsound, hpresses ▸ h.apart, by rw [hlast, hpresses]; exact h.last⟩
  rw [hsame, hdesk]
  exact h.desk

/-- One of them moves so. -/
theorem Actor.Sound.setActivity (h : s.Sound scripts) {i : Fin n} {a : Activity} (hsound : a.Sound (scripts i))
    (hbegun : a.begunSteps = (s.activities i).begunSteps) : (s.setActivity i a).Sound scripts := by
  refine h.moves (fun j => ?_) (fun j => ?_) rfl rfl rfl rfl
  · by_cases hsame : j = i
    · subst hsame
      rwa [Actor.setActivity_self]
    · rw [Actor.setActivity_of_ne s hsame]
      exact h.activities j
  · by_cases hsame : j = i
    · subst hsame
      rwa [Actor.setActivity_self]
    · rw [Actor.setActivity_of_ne s hsame]

theorem waited_begunSteps (a : Activity) : a.waited.begunSteps = a.begunSteps := by
  unfold Activity.waited
  split
  · rfl
  · split
    · rfl
    · show (a.done ++ [a.current]).flatten ++ [] = a.done.flatten ++ a.current
      rw [List.append_nil, List.flatten_append, List.flatten_singleton]
  · rfl

theorem launched_begunSteps (a : Activity) (ok : Bool) : (a.launched ok).begunSteps = a.begunSteps := by
  unfold Activity.launched
  split <;> rfl

theorem start_begunSteps (a : Activity) : a.start.begunSteps = a.begunSteps := by
  unfold Activity.start
  split <;> rfl

theorem advance_settled (a : Activity) : Settled a.advance.2.flatten := by
  unfold Activity.advance
  split
  · split
    · exact settled_nil
    · split
      · exact settled_nil
      · exact ActivityStep.settled _
  all_goals exact settled_nil

theorem Actor.Sound.advance (h : s.Sound scripts) {i : Fin n} (hfree : s.desk.actions (some i) = none) :
    ({ s.setActivity i (s.activities i).advance.1 with
      desk := s.desk.begin (some i) (s.activities i).advance.2 } : Actor n).Sound scripts := by
  obtain ⟨hsound, hbegun⟩ := (h.activities i).advance
  refine ⟨?_, fun j => ?_, h.apart, h.last⟩
  · have hdesk := h.desk.begin hfree (advance_settled (s.activities i))
    refine Eq.mp (congrArg (fun begun => Desk.Sound begun _) ?_) hdesk
    funext task
    cases task with
    | none => rfl
    | some j =>
      show _ = ((s.setActivity i (s.activities i).advance.1).activities j).begun
      by_cases hsame : j = i
      · subst hsame
        rw [Function.update_self, Actor.setActivity_self]
        exact hbegun.symm
      · rw [Actor.setActivity_of_ne s hsame, Function.update_of_ne fun heq => hsame (Option.some.inj heq)]
        rfl
  · show ((s.setActivity i (s.activities i).advance.1).activities j).Sound (scripts j)
    by_cases hsame : j = i
    · subst hsame
      rwa [Actor.setActivity_self]
    · rw [Actor.setActivity_of_ne s hsame]
      exact h.activities j

theorem Actor.Sound.foregroundChanged (h : s.Sound scripts) (now : ℕ) : (s.foregroundChanged now).Sound scripts := by
  unfold Actor.foregroundChanged
  split
  · rename_i hpress
    simp only [Bool.and_eq_true, Option.isNone_iff_eq_none] at hpress
    obtain ⟨⟨⟨-, hfree⟩, -⟩, hallowed⟩ := hpress
    refine ⟨?_, h.activities, ?_, (List.getLast?_concat ..).symm⟩
    · refine Eq.mp (congrArg (fun begun => Desk.Sound begun _) ?_) (h.desk.begin hfree settled_pressEnter)
      funext task
      cases task with
      | none =>
        rw [Function.update_self]
        show _ = (s.presses ++ [now]).flatMap _
        rw [List.flatMap_append, List.flatMap_singleton]
        rfl
      | some i => exact Function.update_of_ne (Option.some_ne_none i) _ _
    · refine List.isChain_append.mpr ⟨h.apart, List.isChain_singleton now, fun last hlast next hnext => ?_⟩
      obtain rfl := Option.some.inj hnext
      rw [pressAllowed, h.last, show s.presses.getLast? = some last from hlast] at hallowed
      have hlate : pressMinInterval ≤ now - last := of_decide_eq_true hallowed
      unfold pressMinInterval at hlate ⊢
      omega
  · exact h

theorem Actor.Sound.step (h : s.Sound scripts) (op : ActorOp n) : (actorStep s op).Sound scripts := by
  cases op with
  | welcome scripted reactive =>
    unfold actorStep
    dsimp only
    split
    · unfold Actor.startAll
      split
      · exact h.moves h.activities (fun _ => rfl) rfl rfl rfl rfl
      · exact h.moves (fun i => (h.activities i).start) (fun i => start_begunSteps _) rfl rfl rfl rfl
    · exact h.moves h.activities (fun _ => rfl) rfl rfl rfl rfl
  | shutdown =>
    have hsound (i : Fin n) : ({ s.activities i with stopped := true } : Activity).Sound (scripts i) :=
      ⟨(h.activities i).steps, (h.activities i).loop, (h.activities i).done⟩
    exact h.moves hsound (fun _ => rfl) rfl rfl rfl rfl
  | pause i => exact h.setActivity ⟨(h.activities i).steps, (h.activities i).loop, (h.activities i).done⟩ rfl
  | resume i => exact h.setActivity ⟨(h.activities i).steps, (h.activities i).loop, (h.activities i).done⟩ rfl
  | launched i ok => exact h.setActivity ((h.activities i).launched ok) (launched_begunSteps _ ok)
  | waited i => exact h.setActivity (h.activities i).waited (waited_begunSteps _)
  | foreground now => exact h.foregroundChanged now
  | submit task inserted => exact ⟨h.desk.submit task inserted, h.activities, h.apart, h.last⟩
  | advance i =>
    unfold actorStep
    dsimp only
    cases hfree : s.desk.actions (some i) with
    | some action => exact h
    | none => exact h.advance hfree

/-! ## Behind a stop -/

/-- Stopped, and no step begun since. -/
def Activity.Halted (begun : List ActivityStep) (a : Activity) : Prop := a.stopped = true ∧ a.begunSteps = begun

theorem Activity.Halted.advance {begun : List ActivityStep} (h : a.Halted begun) : a.advance.1.Halted begun := by
  unfold Activity.advance
  split
  · rw [if_pos h.1]
    exact h
  · exact h
  · rw [if_pos h.1]
    exact h
  · rw [if_pos h.1]
    exact h
  · exact h

theorem halted_step {i : Fin n} {begun : List ActivityStep} (h : (s.activities i).Halted begun) (op : ActorOp n) :
    ((actorStep s op).activities i).Halted begun := by
  have hset (j : Fin n) {a : Activity} (ha : i = j → a.Halted begun) : ((s.setActivity j a).activities i).Halted begun := by
    by_cases hsame : i = j
    · subst hsame
      rw [Actor.setActivity_self]
      exact ha rfl
    · rwa [Actor.setActivity_of_ne s hsame]
  cases op with
  | welcome scripted reactive =>
    unfold actorStep
    dsimp only
    split
    · unfold Actor.startAll
      split
      · exact h
      · refine ⟨?_, (start_begunSteps _).trans h.2⟩
        show (s.activities i).start.stopped = true
        unfold Activity.start
        split <;> exact h.1
    · exact h
  | shutdown => exact ⟨rfl, h.2⟩
  | pause j => exact hset j fun hsame => hsame ▸ h
  | resume j => exact hset j fun hsame => hsame ▸ h
  | launched j ok =>
    refine hset j fun hsame => ?_
    subst hsame
    refine ⟨?_, (launched_begunSteps _ ok).trans h.2⟩
    unfold Activity.launched
    split <;> exact h.1
  | waited j =>
    refine hset j fun hsame => ?_
    subst hsame
    refine ⟨?_, (waited_begunSteps _).trans h.2⟩
    unfold Activity.waited
    split
    · exact h.1
    · split <;> exact h.1
    · exact h.1
  | foreground now =>
    show ((s.foregroundChanged now).activities i).Halted begun
    unfold Actor.foregroundChanged
    split <;> exact h
  | submit task inserted => exact h
  | advance j =>
    unfold actorStep
    dsimp only
    split
    · exact h
    · exact hset j fun hsame => hsame ▸ h.advance

/-- However the activities, the reactive presses and the `SendInput` calls interleave, and wherever a call falls short:
the keys that are down are those of the actions under way and those that broken actions left down, so with none of
either every key is up, and no key is ever released more often than pressed. An activity none of whose calls fell short
has put the texts of its steps on the screen, character by character; its steps are whole passes of its script, but for
passes that a launch aborted and the one at hand; and once it is stopped it begins none. Reactive presses are a second
apart. -/
theorem actor_keyboard (scripts : Fin n → List ActivityStep) (ops : List (ActorOp n)) :
    let s := run actorStep (.boot scripts) ops
    (∀ key, net key (s.desk.keyboard.map Prod.snd) =
        net key (s.desk.broken.map Prod.snd) + ∑ task, net key (s.desk.held task) ∧
      0 ≤ net key (s.desk.broken.map Prod.snd) ∧ ∀ task, 0 ≤ net key (s.desk.held task)) ∧
    (∀ i, some i ∉ s.desk.short → s.desk.actions (some i) = none →
      shown (streamOf (some i) s.desk.keyboard) = (s.activities i).begunSteps.flatMap ActivityStep.text) ∧
    (∀ i, (∀ pass ∈ (s.activities i).done, Pass (scripts i) pass) ∧ (s.activities i).current <+: scripts i) ∧
    (∀ i, (s.activities i).stopped = true → ∀ later,
      ((run actorStep s later).activities i).begunSteps = (s.activities i).begunSteps) ∧
    s.presses.IsChain (· + pressMinInterval ≤ ·) := by
  intro s
  have h : s.Sound scripts := run_invariant (fun _ op h => h.step op) (sound_boot scripts) ops
  refine ⟨fun key => ⟨?_, ?_, fun task => ?_⟩, fun i hwhole hfree => ?_, fun i => ?_, fun i hstopped later => ?_, h.apart⟩
  · rw [net_interleaved, net_interleaved, ← Finset.sum_add_distrib]
    exact Finset.sum_congr rfl fun task _ => h.desk.counts task key
  · rw [net_interleaved]
    exact Finset.sum_nonneg fun task _ => h.desk.stuck task key
  · unfold Desk.held
    split
    · rename_i action haction
      exact (h.desk.whole task action haction).1.never _ (List.prefix_append ..) key
    · exact le_refl 0
  · have hfollows := h.desk.follows (some i) hwhole
    rw [Desk.pending, hfree, List.append_nil] at hfollows
    rw [hfollows]
    exact shown_begun (s.activities i)
  · exact ⟨(h.activities i).done, (h.activities i).current_starts⟩
  · have hhalted : ((run actorStep s later).activities i).Halted (s.activities i).begunSteps := by
      refine run_invariant (I := fun s' : Actor n => (s'.activities i).Halted (s.activities i).begunSteps) ?_ ⟨hstopped, rfl⟩ later
      exact fun _ op h => halted_step h op
    exact hhalted.2

end

end SecOutfall.UserActor
