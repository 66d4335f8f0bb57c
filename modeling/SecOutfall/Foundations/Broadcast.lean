import Mathlib.Tactic.Common
import Mathlib.Data.Nat.Notation
import Mathlib.Data.List.Basic

/-! A broadcast channel whose sender never waits.

The channel keeps its last `capacity` events. A receiver stands at a position of everything sent; where the
event there is gone, it learns how many it missed and goes on with the oldest one left. -/
namespace SecOutfall.Broadcast
set_option autoImplicit false

variable {ε : Type*}

/-- Everything sent, and how much of it is kept. -/
structure Channel (ε : Type*) where
  capacity : ℕ
  log : List ε

inductive Received (ε : Type*) where
  | value (event : ε)
  | lagged (missed : ℕ)
  | empty
  deriving DecidableEq, Repr

namespace Channel

def send (channel : Channel ε) (event : ε) : Channel ε := { channel with log := channel.log ++ [event] }

/-- A receiver gets what is sent from now on. -/
def subscribe (channel : Channel ε) : ℕ := channel.log.length

def oldest (channel : Channel ε) : ℕ := channel.log.length - channel.capacity

def recv (channel : Channel ε) (next : ℕ) : Received ε × ℕ :=
  if next < channel.oldest then (.lagged (channel.oldest - next), channel.oldest)
  else
    match channel.log[next]? with
    | some event => (.value event, next + 1)
    | none => (.empty, next)

/-- What a receiver still gets of what was sent. -/
def unread (channel : Channel ε) (next : ℕ) : List ε := channel.log.drop (max next channel.oldest)

/-- What it does not get any more. -/
def behind (channel : Channel ε) (next : ℕ) : ℕ := channel.oldest - next

end Channel

/-! ## What a receiver was told -/

def values : List (Received ε) → List ε
  | [] => []
  | .value event :: history => event :: values history
  | .lagged _ :: history => values history
  | .empty :: history => values history

def missed : List (Received ε) → ℕ
  | [] => 0
  | .value _ :: history => missed history
  | .lagged count :: history => count + missed history
  | .empty :: history => missed history

/-- From position `next` on, the history takes a receiver to `last`, and its values are those of the log. -/
def Reads (log : List ε) : ℕ → List (Received ε) → ℕ → Prop
  | next, [], last => next = last
  | next, .value event :: history, last => log[next]? = some event ∧ Reads log (next + 1) history last
  | next, .lagged count :: history, last => Reads log (next + count) history last
  | next, .empty :: history, last => Reads log next history last

theorem values_append (history history' : List (Received ε)) :
    values (history ++ history') = values history ++ values history' := by
  induction history with
  | nil => rfl
  | cons answer history ih =>
    cases answer with
    | value event => exact congrArg (event :: ·) ih
    | lagged count => exact ih
    | empty => exact ih

variable {log : List ε} {next last : ℕ} {history : List (Received ε)}

theorem Reads.append (h : Reads log next history last) {history' : List (Received ε)} {end' : ℕ}
    (h' : Reads log last history' end') : Reads log next (history ++ history') end' := by
  induction history generalizing next with
  | nil =>
    cases h
    exact h'
  | cons answer history ih =>
    cases answer with
    | value event => exact ⟨h.1, ih h.2⟩
    | lagged count => exact ih (show Reads log (next + count) history last from h)
    | empty => exact ih (show Reads log next history last from h)

theorem Reads.mono (h : Reads log next history last) (more : List ε) : Reads (log ++ more) next history last := by
  induction history generalizing next with
  | nil => exact h
  | cons answer history ih =>
    cases answer with
    | value event =>
      have hlength := (List.getElem?_eq_some_iff.mp h.1).1
      exact ⟨(List.getElem?_append_left hlength).trans h.1, ih h.2⟩
    | lagged count => exact ih (show Reads log (next + count) history last from h)
    | empty => exact ih (show Reads log next history last from h)

/-- Every position between is of a value or missed. -/
theorem Reads.account (h : Reads log next history last) : next + (values history).length + missed history = last := by
  induction history generalizing next with
  | nil => exact h
  | cons answer history ih =>
    cases answer with
    | value event =>
      have hrest := ih h.2
      show next + ((values history).length + 1) + missed history = last
      omega
    | lagged count =>
      have hrest := ih (show Reads log (next + count) history last from h)
      show next + (values history).length + (count + missed history) = last
      omega
    | empty => exact ih (show Reads log next history last from h)

/-- The values stand in the log in their order, at the positions from `next` on. -/
theorem Reads.sublist (h : Reads log next history last) :
    (values history ++ log.drop last).Sublist (log.drop next) := by
  induction history generalizing next with
  | nil =>
    cases h
    exact .refl _
  | cons answer history ih =>
    cases answer with
    | value event =>
      obtain ⟨hlength, hevent⟩ := List.getElem?_eq_some_iff.mp h.1
      rw [List.drop_eq_getElem_cons hlength, hevent]
      exact (ih h.2).cons_cons event
    | lagged count =>
      have hrest := ih (show Reads log (next + count) history last from h)
      rw [← List.drop_drop] at hrest
      exact hrest.trans (List.drop_sublist _ _)
    | empty => exact ih (show Reads log next history last from h)

/-! ## Receivers -/

/-- A receiver that subscribed at `start`, was told `history` and stands at `next`. -/
structure Follows (channel : Channel ε) (start : ℕ) (history : List (Received ε)) (next : ℕ) : Prop where
  reads : Reads channel.log start history next
  sent : next ≤ channel.log.length

theorem follows_subscribe (channel : Channel ε) : Follows channel channel.log.length [] channel.subscribe :=
  ⟨rfl, Nat.le_refl _⟩

variable {channel : Channel ε} {start : ℕ}

theorem recv_reads (hsent : next ≤ channel.log.length) :
    Reads channel.log next [(channel.recv next).1] (channel.recv next).2 ∧
      (channel.recv next).2 ≤ channel.log.length := by
  unfold Channel.recv
  split
  · rename_i hgone
    refine ⟨?_, Nat.sub_le _ _⟩
    show next + (channel.oldest - next) = channel.oldest
    omega
  · split
    · rename_i event hevent
      exact ⟨⟨hevent, rfl⟩, (List.getElem?_eq_some_iff.mp hevent).1⟩
    · exact ⟨rfl, hsent⟩

namespace Follows

theorem send (h : Follows channel start history next) (event : ε) :
    Follows (channel.send event) start history next := by
  refine ⟨h.reads.mono [event], ?_⟩
  show next ≤ (channel.log ++ [event]).length
  rw [List.length_append]
  exact Nat.le_add_right_of_le h.sent

theorem recv (h : Follows channel start history next) :
    Follows channel start (history ++ [(channel.recv next).1]) (channel.recv next).2 :=
  have hrecv := recv_reads h.sent
  ⟨h.reads.append hrecv.1, hrecv.2⟩

/-- Every event sent since the subscription was read or missed, or can be read, or is gone unnoticed. -/
theorem account (h : Follows channel start history next) :
    start + (values history).length + missed history + channel.behind next + (channel.unread next).length =
      channel.log.length := by
  have hreads := h.reads.account
  have hsent := h.sent
  have holdest : channel.oldest ≤ channel.log.length := Nat.sub_le _ _
  rw [Channel.behind, Channel.unread, List.length_drop]
  omega

/-- What was read and what can be read stand in this order among what was sent since the subscription. -/
theorem sublist (h : Follows channel start history next) :
    (values history ++ channel.unread next).Sublist (channel.log.drop start) := by
  refine List.Sublist.trans ?_ h.reads.sublist
  refine List.Sublist.append_left ?_ _
  have hmax : max next channel.oldest = next + (channel.oldest - next) := by omega
  rw [Channel.unread, hmax, ← List.drop_drop]
  exact List.drop_sublist _ _

end Follows

end SecOutfall.Broadcast
