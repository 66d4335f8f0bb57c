import Mathlib.Data.List.Basic
import Mathlib.Logic.Function.Basic
import SecOutfall.Foundations.Runs

/-! The lifetimes of objects that callbacks reach, over a program that makes, registers and takes down.

A program is a list of steps. Between any two of them, callbacks run that are registered at the time, each on
objects it can reach. `check` walks the program once, with the objects that are live, the callbacks that are
registered and the objects that are certain to be empty; a program it passes faults in no interleaving and
leaks nothing. -/
namespace SecOutfall.Lifetimes
open Runs
set_option autoImplicit false

variable {Object Callback : Type*} [DecidableEq Object]

/-! ## Programs -/

inductive Step (Object Callback : Type*) where
  | new (object : Object)
  -- puts blocks into an object
  | fill (object : Object) (blocks : ℕ)
  | register (callback : Callback)
  | unregister (callback : Callback)
  -- frees what the object holds, if it is there
  | clear (object : Object)
  -- forgets what the object holds, if it is there
  | forget (object : Object)
  -- frees the object, if it is there, and forgets what it holds
  | delete (object : Object)
  deriving DecidableEq, Repr

structure World (Object Callback : Type*) where
  live : Object → Bool
  contents : Object → ℕ
  active : Callback → Bool
  leaked : ℕ
  fault : Bool

/-- Something to do, or a callback that leaves the objects it touches with that many blocks. -/
inductive Op (Object Callback : Type*) where
  | advance
  | call (callback : Callback) (touched : List (Object × ℕ))

structure Running (Object Callback : Type*) where
  program : List (Step Object Callback)
  world : World Object Callback

namespace World

def put (w : World Object Callback) (touched : List (Object × ℕ)) : World Object Callback :=
  { w with contents := touched.foldl (fun contents entry => Function.update contents entry.1 entry.2) w.contents }

/-- A callback that is not registered does not run, and one that touches an object that is gone faults. -/
def call (reach : Callback → List Object) (w : World Object Callback) (callback : Callback)
    (touched : List (Object × ℕ)) : World Object Callback :=
  if w.active callback && touched.all fun entry => entry.1 ∈ reach callback then
    if touched.all fun entry => w.live entry.1 then w.put touched else { w with fault := true }
  else w

end World

section
variable [DecidableEq Callback]

namespace World

/-- An object that is not there is not to be filled. -/
def exec (w : World Object Callback) : Step Object Callback → World Object Callback
  | .new object =>
    { w with
      live := Function.update w.live object true
      contents := Function.update w.contents object 0
      leaked := w.leaked + w.contents object }
  | .fill object blocks => if w.live object then w.put [(object, blocks)] else { w with fault := true }
  | .register callback => { w with active := Function.update w.active callback true }
  | .unregister callback => { w with active := Function.update w.active callback false }
  | .clear object => if w.live object then w.put [(object, 0)] else w
  | .forget object => if w.live object then { w.put [(object, 0)] with leaked := w.leaked + w.contents object } else w
  | .delete object =>
    if w.live object then
      { w.put [(object, 0)] with
        live := Function.update w.live object false
        leaked := w.leaked + w.contents object }
    else w

end World

def lifeStep (reach : Callback → List Object) (s : Running Object Callback) :
    Op Object Callback → Running Object Callback
  | .advance =>
    match s.program with
    | [] => s
    | step :: rest => ⟨rest, s.world.exec step⟩
  | .call callback touched => { s with world := s.world.call reach callback touched }

end

/-! ## The check -/

/-- What the check knows. -/
structure Sketch (Object Callback : Type*) where
  live : List Object
  active : List Callback
  empty : List Object
  deriving DecidableEq, Repr

/-- No registered callback reaches the object. -/
def Sketch.quiet (reach : Callback → List Object) (k : Sketch Object Callback) (object : Object) : Bool :=
  k.active.all fun callback => object ∉ reach callback

namespace Sketch
variable [DecidableEq Callback] (reach : Callback → List Object)

/-- The sketch behind a step, if the step is sound. -/
def next (k : Sketch Object Callback) : Step Object Callback → Option (Sketch Object Callback)
  | .new object =>
    if object ∉ k.live then some { k with live := object :: k.live, empty := object :: k.empty } else none
  | .fill object _ => if object ∈ k.live then some { k with empty := k.empty.filter (· ≠ object) } else none
  | .register callback =>
    if (reach callback).all (· ∈ k.live) then
      some { k with active := callback :: k.active, empty := k.empty.filter (· ∉ reach callback) }
    else none
  | .unregister callback => some { k with active := k.active.filter (· ≠ callback) }
  | .clear object => some (if k.quiet reach object then { k with empty := object :: k.empty } else k)
  | .forget object => if object ∉ k.live ∨ object ∈ k.empty then some k else none
  | .delete object =>
    if object ∉ k.live then some k
    else if object ∈ k.empty ∧ k.quiet reach object then some { k with live := k.live.filter (· ≠ object) }
    else none

def check (k : Sketch Object Callback) : List (Step Object Callback) → Option (Sketch Object Callback)
  | [] => some k
  | step :: rest =>
    match k.next reach step with
    | some k => k.check rest
    | none => none

end Sketch

/-! ## Soundness -/

theorem put_contents_of_not_mem (w : World Object Callback) {touched : List (Object × ℕ)} {object : Object}
    (h : ∀ entry ∈ touched, entry.1 ≠ object) : (w.put touched).contents object = w.contents object := by
  show (touched.foldl (fun contents entry => Function.update contents entry.1 entry.2) w.contents) object = _
  generalize w.contents = contents
  induction touched generalizing contents with
  | nil => rfl
  | cons entry touched ih =>
    rw [List.foldl_cons, ih (fun entry' hmem => h entry' (List.mem_cons_of_mem _ hmem))]
    exact Function.update_of_ne (h entry List.mem_cons_self).symm _ _

theorem put_contents_singleton (w : World Object Callback) (object other : Object) (blocks : ℕ) :
    (w.put [(object, blocks)]).contents other = if other = object then blocks else w.contents other :=
  Function.update_apply ..

theorem quiet_iff {reach : Callback → List Object} {k : Sketch Object Callback} {object : Object} :
    k.quiet reach object = true ↔ ∀ callback ∈ k.active, object ∉ reach callback := by
  simp [Sketch.quiet]

/-- The world is as the sketch says. -/
structure Fits (reach : Callback → List Object) (k : Sketch Object Callback) (w : World Object Callback) : Prop where
  live : ∀ object, w.live object = true ↔ object ∈ k.live
  active : ∀ callback, w.active callback = true ↔ callback ∈ k.active
  empty : ∀ object ∈ k.empty, w.contents object = 0
  gone : ∀ object, object ∉ k.live → w.contents object = 0
  guarded : ∀ callback ∈ k.active, ∀ object ∈ reach callback, object ∈ k.live
  untouched : ∀ callback ∈ k.active, ∀ object ∈ reach callback, object ∉ k.empty
  leaked : w.leaked = 0
  fault : w.fault = false

variable {reach : Callback → List Object} {k k' : Sketch Object Callback} {w : World Object Callback}

namespace Fits

/-- Taking the blocks of an object away, freed or forgotten. -/
theorem emptied (h : Fits reach k w) (object : Object) : Fits reach k (w.put [(object, 0)]) := by
  refine ⟨h.live, h.active, fun other hother => ?_, fun other hother => ?_, h.guarded, h.untouched, h.leaked, h.fault⟩
  · rw [put_contents_singleton, h.empty other hother, ite_self]
  · rw [put_contents_singleton, h.gone other hother, ite_self]

/-- A registered callback finds what it touches, and leaves what the sketch holds for empty alone. -/
theorem call (h : Fits reach k w) (callback : Callback) (touched : List (Object × ℕ)) :
    Fits reach k (w.call reach callback touched) := by
  unfold World.call
  split
  · rename_i hruns
    rw [Bool.and_eq_true, List.all_eq_true] at hruns
    obtain ⟨hactive, hreach⟩ := hruns
    have hreach' : ∀ entry ∈ touched, entry.1 ∈ reach callback := fun entry hmem =>
      of_decide_eq_true (hreach entry hmem)
    have hcallback := (h.active callback).mp hactive
    have hlive : (touched.all fun entry => w.live entry.1) = true :=
      List.all_eq_true.mpr fun entry hmem =>
        (h.live entry.1).mpr (h.guarded callback hcallback entry.1 (hreach' entry hmem))
    rw [if_pos hlive]
    refine ⟨h.live, h.active, fun object hobject => ?_, fun object hobject => ?_, h.guarded, h.untouched, h.leaked,
      h.fault⟩
    · have hother : ∀ entry ∈ touched, entry.1 ≠ object := fun entry hmem heq =>
        h.untouched callback hcallback entry.1 (hreach' entry hmem) (heq ▸ hobject)
      rw [put_contents_of_not_mem w hother]
      exact h.empty object hobject
    · have hother : ∀ entry ∈ touched, entry.1 ≠ object := fun entry hmem heq =>
        hobject (heq ▸ h.guarded callback hcallback entry.1 (hreach' entry hmem))
      rw [put_contents_of_not_mem w hother]
      exact h.gone object hobject
  · exact h

variable [DecidableEq Callback]

theorem new (h : Fits reach k w) {object : Object} (hnew : object ∉ k.live) :
    Fits reach { k with live := object :: k.live, empty := object :: k.empty } (w.exec (.new object)) := by
  refine ⟨fun other => ?_, h.active, fun other hother => ?_, fun other hother => ?_, fun callback hactive other hreach =>
    List.mem_cons_of_mem _ (h.guarded callback hactive other hreach), fun callback hactive other hreach hempty => ?_, ?_,
    h.fault⟩
  · show Function.update w.live object true other = true ↔ other ∈ object :: k.live
    by_cases hsame : other = object
    · simp [hsame]
    · simp [hsame, h.live other]
  · show Function.update w.contents object 0 other = 0
    by_cases hsame : other = object
    · simp [hsame]
    · rw [Function.update_of_ne hsame]
      exact h.empty other ((List.mem_cons.mp hother).resolve_left hsame)
  · rw [List.mem_cons, not_or] at hother
    show Function.update w.contents object 0 other = 0
    rw [Function.update_of_ne hother.1]
    exact h.gone other hother.2
  · obtain rfl | hempty := List.mem_cons.mp hempty
    · exact hnew (h.guarded callback hactive other hreach)
    · exact h.untouched callback hactive other hreach hempty
  · show w.leaked + w.contents object = 0
    rw [h.leaked, h.gone object hnew]

theorem fill (h : Fits reach k w) {object : Object} (hlive : object ∈ k.live) (blocks : ℕ) :
    Fits reach { k with empty := k.empty.filter (· ≠ object) } (w.exec (.fill object blocks)) := by
  rw [World.exec, if_pos ((h.live object).mpr hlive)]
  refine ⟨h.live, h.active, fun other hother => ?_, fun other hother => ?_, h.guarded,
    fun callback hactive other hreach hempty => ?_, h.leaked, h.fault⟩
  · obtain ⟨hempty, hne⟩ := List.mem_filter.mp hother
    rw [put_contents_singleton, if_neg (of_decide_eq_true hne)]
    exact h.empty other hempty
  · have hne : other ≠ object := fun heq => hother (heq ▸ hlive)
    rw [put_contents_singleton, if_neg hne]
    exact h.gone other hother
  · exact h.untouched callback hactive other hreach (List.mem_filter.mp hempty).1

theorem register (h : Fits reach k w) {callback : Callback} (hreach : ∀ object ∈ reach callback, object ∈ k.live) :
    Fits reach { k with active := callback :: k.active, empty := k.empty.filter (· ∉ reach callback) }
      (w.exec (.register callback)) := by
  refine ⟨h.live, fun other => ?_, fun object hobject => h.empty object (List.mem_filter.mp hobject).1, h.gone,
    fun other hother object hmem => ?_, fun other hother object hmem hempty => ?_, h.leaked, h.fault⟩
  · show Function.update w.active callback true other = true ↔ other ∈ callback :: k.active
    by_cases hsame : other = callback
    · simp [hsame]
    · simp [hsame, h.active other]
  · obtain rfl | hother := List.mem_cons.mp hother
    · exact hreach object hmem
    · exact h.guarded other hother object hmem
  · obtain ⟨hempty, houtside⟩ := List.mem_filter.mp hempty
    obtain rfl | hother := List.mem_cons.mp hother
    · exact of_decide_eq_true houtside hmem
    · exact h.untouched other hother object hmem hempty

theorem unregister (h : Fits reach k w) (callback : Callback) :
    Fits reach { k with active := k.active.filter (· ≠ callback) } (w.exec (.unregister callback)) := by
  refine ⟨h.live, fun other => ?_, h.empty, h.gone, fun other hother => h.guarded other (List.mem_filter.mp hother).1,
    fun other hother => h.untouched other (List.mem_filter.mp hother).1, h.leaked, h.fault⟩
  show Function.update w.active callback false other = true ↔ other ∈ k.active.filter (· ≠ callback)
  by_cases hsame : other = callback
  · simp [hsame]
  · simp [hsame, h.active other]

theorem clear (h : Fits reach k w) (object : Object) :
    Fits reach (if k.quiet reach object then { k with empty := object :: k.empty } else k)
      (w.exec (.clear object)) := by
  have hafter : Fits reach k (w.exec (.clear object)) := by
    rw [World.exec]
    split
    · exact h.emptied object
    · exact h
  split
  · rename_i hquiet
    refine ⟨hafter.live, hafter.active, fun other hother => ?_, hafter.gone, hafter.guarded,
      fun callback hactive other hreach hempty => ?_, hafter.leaked, hafter.fault⟩
    · obtain rfl | hother := List.mem_cons.mp hother
      · by_cases hlive : w.live other = true
        · rw [World.exec, if_pos hlive, put_contents_singleton, if_pos rfl]
        · rw [World.exec, if_neg hlive]
          exact h.gone other (mt (h.live other).mpr hlive)
      · exact hafter.empty other hother
    · obtain rfl | hempty := List.mem_cons.mp hempty
      · exact quiet_iff.mp hquiet callback hactive hreach
      · exact hafter.untouched callback hactive other hreach hempty
  · exact hafter

theorem forget (h : Fits reach k w) {object : Object} (hempty : object ∉ k.live ∨ object ∈ k.empty) :
    Fits reach k (w.exec (.forget object)) := by
  rw [World.exec]
  split
  · rename_i hlive
    have hnone := h.empty object (hempty.resolve_left fun hgone => hgone ((h.live object).mp hlive))
    have hput := h.emptied object
    exact ⟨hput.live, hput.active, hput.empty, hput.gone, hput.guarded, hput.untouched,
      show w.leaked + w.contents object = 0 by rw [h.leaked, hnone], hput.fault⟩
  · exact h

theorem delete (h : Fits reach k w) {object : Object} (hempty : object ∈ k.empty)
    (hquiet : ∀ callback ∈ k.active, object ∉ reach callback) (hlive : object ∈ k.live) :
    Fits reach { k with live := k.live.filter (· ≠ object) } (w.exec (.delete object)) := by
  rw [World.exec, if_pos ((h.live object).mpr hlive)]
  have hput := h.emptied object
  refine ⟨fun other => ?_, hput.active, hput.empty, fun other hother => ?_, fun callback hactive other hreach => ?_,
    hput.untouched, show w.leaked + w.contents object = 0 by rw [h.leaked, h.empty object hempty], hput.fault⟩
  · show Function.update w.live object false other = true ↔ other ∈ k.live.filter (· ≠ object)
    by_cases hsame : other = object
    · simp [hsame]
    · simp [hsame, h.live other]
  · show (w.put [(object, 0)]).contents other = 0
    by_cases hsame : other = object
    · rw [put_contents_singleton, if_pos hsame]
    · exact hput.gone other fun hmem => hother (List.mem_filter.mpr ⟨hmem, decide_eq_true hsame⟩)
  · have hne : other ≠ object := fun heq => hquiet callback hactive (heq ▸ hreach)
    exact List.mem_filter.mpr ⟨h.guarded callback hactive other hreach, decide_eq_true hne⟩

/-- A step the check passes keeps the world as the sketch says. -/
theorem exec (h : Fits reach k w) {step : Step Object Callback} (hnext : k.next reach step = some k') :
    Fits reach k' (w.exec step) := by
  cases step with
  | new object =>
    rw [Sketch.next, Option.ite_none_right_eq_some, Option.some.injEq] at hnext
    obtain ⟨hnew, rfl⟩ := hnext
    exact h.new hnew
  | fill object blocks =>
    rw [Sketch.next, Option.ite_none_right_eq_some, Option.some.injEq] at hnext
    obtain ⟨hlive, rfl⟩ := hnext
    exact h.fill hlive blocks
  | register callback =>
    rw [Sketch.next, Option.ite_none_right_eq_some, List.all_eq_true, Option.some.injEq] at hnext
    obtain ⟨hreach, rfl⟩ := hnext
    exact h.register fun object hobject => of_decide_eq_true (hreach object hobject)
  | unregister callback =>
    obtain rfl := Option.some.inj hnext
    exact h.unregister callback
  | clear object =>
    obtain rfl := Option.some.inj hnext
    exact h.clear object
  | forget object =>
    rw [Sketch.next, Option.ite_none_right_eq_some, Option.some.injEq] at hnext
    obtain ⟨hempty, rfl⟩ := hnext
    exact h.forget hempty
  | delete object =>
    rw [Sketch.next] at hnext
    split at hnext
    · rename_i hgone
      obtain rfl := Option.some.inj hnext
      rw [World.exec, if_neg (mt (h.live object).mp hgone)]
      exact h
    · rename_i hlive
      rw [Option.ite_none_right_eq_some, Option.some.injEq] at hnext
      obtain ⟨⟨hempty, hquiet⟩, rfl⟩ := hnext
      exact h.delete hempty (quiet_iff.mp hquiet) (not_not.mp hlive)

/-- A program the check passes never faults and never leaks, whatever runs between its steps, and ends as the
check says. -/
theorem run (h : Fits reach k w) {program : List (Step Object Callback)} {last : Sketch Object Callback}
    (hcheck : k.check reach program = some last) (ops : List (Op Object Callback)) :
    ∃ k', Fits reach k' (Runs.run (lifeStep reach) ⟨program, w⟩ ops).world ∧
      k'.check reach (Runs.run (lifeStep reach) ⟨program, w⟩ ops).program = some last := by
  induction ops generalizing k w program with
  | nil => exact ⟨k, h, hcheck⟩
  | cons op ops ih =>
    rw [run_cons]
    cases op with
    | call callback touched => exact ih (h.call callback touched) hcheck
    | advance =>
      cases program with
      | nil => exact ih h hcheck
      | cons step rest =>
        rw [Sketch.check] at hcheck
        split at hcheck
        · rename_i k' hnext
          exact ih (h.exec hnext) hcheck
        · cases hcheck

end Fits

end SecOutfall.Lifetimes
