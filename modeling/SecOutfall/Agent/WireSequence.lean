import Mathlib.Data.List.Chain
import SecOutfall.Foundations.Runs

/-! Sequence numbers on the wire: `next_seq` of `plugins/wire.rs`, and the sequence trackers of the dummy
broker.

One counter numbers the envelopes of all publishers. A publisher takes a number and hands its envelope over
in two steps, and the broker delivers a channel in the order of the hand-overs. -/
namespace SecOutfall.Agent
open Runs
set_option autoImplicit false

/-! ## The observer -/

inductive Channel where
  | control
  | events
  deriving DecidableEq, Repr

inductive SeqVerdict where
  | inOrder
  | gap (missing : UInt64)
  | regression
  deriving DecidableEq, Repr

def checkedAdd (a b : UInt64) : Option UInt64 :=
  if a.toNat + b.toNat < 18446744073709551616 then some (a + b) else none

def checkedSub (a b : UInt64) : Option UInt64 := if b ≤ a then some (a - b) else none

structure SeqTracker where
  last : Option UInt64
  deriving DecidableEq, Repr

def SeqTracker.observe (tracker : SeqTracker) (seq : UInt64) : SeqVerdict × SeqTracker :=
  match tracker.last with
  | none => (.inOrder, ⟨some seq⟩)
  | some last =>
    match (checkedAdd last 1).bind (checkedSub seq) with
    | some missing => if 0 < missing then (.gap missing, ⟨some seq⟩) else (.inOrder, ⟨some seq⟩)
    | none => (.regression, tracker)

/-- The counters of parsed traffic. -/
structure Traffic where
  control : ℕ
  events : ℕ
  gaps : ℕ
  missingSeqs : ℕ
  regressions : ℕ
  deriving DecidableEq, Repr

/-- `reported` lists the verdicts. -/
structure Observer where
  traffic : Traffic
  controlSeqs : SeqTracker
  eventSeqs : SeqTracker
  reported : List (Channel × SeqVerdict)
  deriving DecidableEq, Repr

namespace Observer

def new : Observer := ⟨⟨0, 0, 0, 0, 0⟩, ⟨none⟩, ⟨none⟩, []⟩

def seqs (observer : Observer) : Channel → SeqTracker
  | .control => observer.controlSeqs
  | .events => observer.eventSeqs

def setSeqs (observer : Observer) (channel : Channel) (tracker : SeqTracker) : Observer :=
  match channel with
  | .control => { observer with controlSeqs := tracker }
  | .events => { observer with eventSeqs := tracker }

/-- A parsed envelope. -/
def observe (observer : Observer) (channel : Channel) (seq : UInt64) : Observer :=
  let traffic :=
    match channel with
    | .control => { observer.traffic with control := observer.traffic.control + 1 }
    | .events => { observer.traffic with events := observer.traffic.events + 1 }
  let (verdict, tracker) := (observer.seqs channel).observe seq
  let traffic :=
    match verdict with
    | .inOrder => traffic
    | .gap missing =>
      { traffic with gaps := traffic.gaps + 1, missingSeqs := traffic.missingSeqs + missing.toNat }
    | .regression => { traffic with regressions := traffic.regressions + 1 }
  { observer.setSeqs channel tracker with traffic, reported := observer.reported ++ [(channel, verdict)] }

end Observer

/-! ## The publishers -/

/-- `fetch_add`: the number taken, and the counter behind it. -/
def nextSeq (seq : UInt64) : UInt64 × UInt64 := (seq, seq + 1)

/-- The agent's counter, what each publisher has numbered and not handed over, and the observer. -/
structure Publishing where
  seq : UInt64
  pending : ℕ → Option (Channel × UInt64)
  observer : Observer

def Publishing.initial : Publishing := ⟨0, fun _ => none, .new⟩

inductive PublisherOp where
  | nextSeq (publisher : ℕ) (channel : Channel)
  | publish (publisher : ℕ)
  deriving DecidableEq, Repr

def publisherStep (s : Publishing) : PublisherOp → Publishing
  | .nextSeq publisher channel =>
    match s.pending publisher with
    | some _ => s
    | none =>
      let (number, seq) := nextSeq s.seq
      { s with seq, pending := Function.update s.pending publisher (some (channel, number)) }
  | .publish publisher =>
    match s.pending publisher with
    | none => s
    | some (channel, number) =>
      { s with
        pending := Function.update s.pending publisher none
        observer := s.observer.observe channel number }

def OnlyInOrder (observer : Observer) : Prop := ∀ report ∈ observer.reported, report.2 = .inOrder

instance (observer : Observer) : Decidable (OnlyInOrder observer) :=
  inferInstanceAs (Decidable (∀ report ∈ observer.reported, report.2 = .inOrder))

/-! ## The schedule -/

/-- The same publishers with their takes counted: which take each hand-over is of. -/
structure Schedule where
  taken : ℕ
  pending : ℕ → Option (Channel × ℕ)
  handed : List (Channel × ℕ)

def Schedule.initial : Schedule := ⟨0, fun _ => none, []⟩

def scheduleStep (t : Schedule) : PublisherOp → Schedule
  | .nextSeq publisher channel =>
    match t.pending publisher with
    | some _ => t
    | none =>
      { t with
        taken := t.taken + 1
        pending := Function.update t.pending publisher (some (channel, t.taken)) }
  | .publish publisher =>
    match t.pending publisher with
    | none => t
    | some take =>
      { t with pending := Function.update t.pending publisher none, handed := t.handed ++ [take] }

def Schedule.handedOn (t : Schedule) (channel : Channel) : List ℕ :=
  t.handed.filterMap fun take => if take.1 = channel then some take.2 else none

/-- Nothing was taken between them. Full turns of the counter do not show, but its turn does. -/
def DirectlyBehind (earlier take : ℕ) : Prop :=
  take % 18446744073709551616 = earlier % 18446744073709551616 + 1

/-- On each channel every hand-over is of the take directly behind that of the one before. -/
def Undisturbed (t : Schedule) : Prop := ∀ channel, (t.handedOn channel).IsChain DirectlyBehind

/-! ## Verdicts -/

theorem SeqTracker.observe_inOrder (tracker : SeqTracker) (seq : UInt64) :
    ((tracker.observe seq).1 = .inOrder ↔ ∀ last ∈ tracker.last, seq.toNat = last.toNat + 1) ∧
      ((tracker.observe seq).1 = .inOrder → (tracker.observe seq).2.last = some seq) := by
  unfold observe
  cases tracker.last with
  | none => simp
  | some last =>
    dsimp only
    have hseq := seq.toNat_lt
    have hlast := last.toNat_lt
    by_cases hroom : last.toNat + 1 < 18446744073709551616
    · have hnext : (last + 1).toNat = last.toNat + 1 := by
        rw [UInt64.toNat_add]
        exact Nat.mod_eq_of_lt hroom
      have hadd : checkedAdd last 1 = some (last + 1) := if_pos hroom
      rw [hadd, Option.bind_some, checkedSub]
      by_cases hle : last + 1 ≤ seq
      · rw [if_pos hle]
        have hsub : (seq - (last + 1)).toNat = seq.toNat - (last.toNat + 1) := by
          rw [UInt64.toNat_sub_of_le _ _ hle, hnext]
        rw [UInt64.le_iff_toNat_le, hnext] at hle
        by_cases hgap : 0 < seq - (last + 1)
        · have hpos := UInt64.lt_iff_toNat_lt.mp hgap
          rw [hsub, UInt64.toNat_zero] at hpos
          simp only [hgap, if_true, reduceCtorEq, false_iff, Option.mem_def, Option.some.injEq, forall_eq']
          exact ⟨by omega, nofun⟩
        · have hzero : ¬ 0 < (seq - (last + 1)).toNat := fun h => hgap (UInt64.lt_iff_toNat_lt.mpr h)
          rw [hsub] at hzero
          simp only [hgap, if_false, true_iff, Option.mem_def, Option.some.injEq, forall_eq', implies_true, and_true]
          omega
      · rw [if_neg hle]
        rw [UInt64.le_iff_toNat_le, hnext] at hle
        simp only [reduceCtorEq, false_iff, Option.mem_def, Option.some.injEq, forall_eq']
        exact ⟨by omega, nofun⟩
    · have hadd : checkedAdd last 1 = none := if_neg hroom
      rw [hadd, Option.bind_none]
      simp only [reduceCtorEq, false_iff, Option.mem_def, Option.some.injEq, forall_eq']
      exact ⟨by omega, nofun⟩

/-! ## The counter behind the takes -/

namespace Observer

theorem seqs_setSeqs (observer : Observer) (channel other : Channel) (tracker : SeqTracker) :
    (observer.setSeqs channel tracker).seqs other = if other = channel then tracker else observer.seqs other := by
  cases channel <;> cases other <;> rfl

theorem observe_seqs (observer : Observer) (channel other : Channel) (seq : UInt64) :
    (observer.observe channel seq).seqs other =
      if other = channel then ((observer.seqs channel).observe seq).2 else observer.seqs other :=
  seqs_setSeqs observer channel other _

theorem observe_onlyInOrder (observer : Observer) (channel : Channel) (seq : UInt64) :
    OnlyInOrder (observer.observe channel seq) ↔
      OnlyInOrder observer ∧ ((observer.seqs channel).observe seq).1 = .inOrder := by
  have hreported : (observer.observe channel seq).reported =
      observer.reported ++ [(channel, ((observer.seqs channel).observe seq).1)] := rfl
  simp [OnlyInOrder, hreported, or_imp, forall_and]

end Observer

theorem handedOn_publish (t : Schedule) (pending : ℕ → Option (Channel × ℕ)) (channel other : Channel) (take : ℕ) :
    ({ t with pending, handed := t.handed ++ [(channel, take)] } : Schedule).handedOn other =
      t.handedOn other ++ if channel = other then [take] else [] := by
  simp only [Schedule.handedOn, List.filterMap_append]
  by_cases hsame : channel = other <;> simp [hsame]

theorem isChain_concat {takes : List ℕ} {take : ℕ} :
    (takes ++ [take]).IsChain DirectlyBehind ↔
      takes.IsChain DirectlyBehind ∧ ∀ last ∈ takes.getLast?, DirectlyBehind last take := by
  simp [List.isChain_append]

/-- The number of a take. -/
def numbered (take : Channel × ℕ) : Channel × UInt64 := (take.1, .ofNat take.2)

theorem update_numbered {pending : ℕ → Option (Channel × UInt64)} {takes : ℕ → Option (Channel × ℕ)}
    (h : ∀ publisher, pending publisher = (takes publisher).map numbered) (publisher : ℕ)
    (take : Option (Channel × ℕ)) (other : ℕ) :
    Function.update pending publisher (take.map numbered) other =
      (Function.update takes publisher take other).map numbered := by
  simp only [Function.update_apply]
  split
  · rfl
  · exact h other

/-- The numbers are the takes, as far as the counter shows them, and a tracker that saw no disorder holds the
last one of its channel. -/
structure Agree (s : Publishing) (t : Schedule) : Prop where
  seq : s.seq = .ofNat t.taken
  pending : ∀ publisher, s.pending publisher = (t.pending publisher).map numbered
  last : OnlyInOrder s.observer → ∀ channel,
    (s.observer.seqs channel).last = (t.handedOn channel).getLast?.map .ofNat
  verdicts : OnlyInOrder s.observer ↔ Undisturbed t

theorem agree_initial : Agree .initial .initial := by
  refine ⟨rfl, fun _ => rfl, fun _ channel => ?_, ?_⟩
  · cases channel <;> rfl
  · have hnone : OnlyInOrder Observer.new := by decide
    exact ⟨fun _ _ => .nil, fun _ => hnone⟩

theorem Agree.nextSeq {s : Publishing} {t : Schedule} (h : Agree s t) (publisher : ℕ) (channel : Channel) :
    Agree (publisherStep s (.nextSeq publisher channel)) (scheduleStep t (.nextSeq publisher channel)) := by
  have hpending := h.pending publisher
  simp only [publisherStep, scheduleStep]
  cases htake : t.pending publisher with
  | some take =>
    rw [htake] at hpending
    rw [hpending]
    exact h
  | none =>
    rw [htake] at hpending
    rw [hpending]
    refine ⟨?_, fun other => ?_, h.last, h.verdicts⟩
    · simp [Agent.nextSeq, h.seq, UInt64.ofNat_add]
    · have hnumber : (some (channel, s.seq) : Option (Channel × UInt64)) =
          (some (channel, t.taken) : Option (Channel × ℕ)).map numbered := by rw [h.seq]; rfl
      show Function.update s.pending publisher (some (channel, s.seq)) other = _
      rw [hnumber]
      exact update_numbered h.pending publisher _ other

theorem Agree.publish {s : Publishing} {t : Schedule} (h : Agree s t) (publisher : ℕ) :
    Agree (publisherStep s (.publish publisher)) (scheduleStep t (.publish publisher)) := by
  have hpending := h.pending publisher
  simp only [publisherStep, scheduleStep]
  cases htake : t.pending publisher with
  | none =>
    rw [htake] at hpending
    rw [hpending]
    exact h
  | some entry =>
    obtain ⟨channel, take⟩ := entry
    rw [htake, Option.map_some] at hpending
    rw [hpending]
    dsimp only [numbered]
    obtain ⟨hverdict, hlast⟩ := (s.observer.seqs channel).observe_inOrder (.ofNat take)
    refine ⟨h.seq, update_numbered h.pending publisher none, fun hall other => ?_, ?_⟩
    · obtain ⟨hbefore, hnow⟩ := (Observer.observe_onlyInOrder _ _ _).mp hall
      rw [handedOn_publish, Observer.observe_seqs]
      by_cases hsame : other = channel
      · subst hsame
        rw [if_pos rfl, if_pos rfl, hlast hnow, List.getLast?_concat]
        rfl
      · rw [if_neg hsame, if_neg (Ne.symm hsame), List.append_nil]
        exact h.last hbefore other
    · -- the verdict is on the channel's last number, and the chain grows by the take
      have hchains : Undisturbed { t with
            pending := Function.update t.pending publisher none, handed := t.handed ++ [(channel, take)] } ↔
          Undisturbed t ∧ ∀ last ∈ (t.handedOn channel).getLast?, DirectlyBehind last take := by
        constructor
        · intro hall
          have hmine := hall channel
          rw [handedOn_publish, if_pos rfl, isChain_concat] at hmine
          refine ⟨fun other => ?_, hmine.2⟩
          have hother := hall other
          rw [handedOn_publish] at hother
          exact (List.isChain_append.mp hother).1
        · rintro ⟨hall, hbehind⟩ other
          rw [handedOn_publish]
          by_cases hsame : channel = other
          · subst hsame
            rw [if_pos rfl, isChain_concat]
            exact ⟨hall channel, hbehind⟩
          · rw [if_neg hsame, List.append_nil]
            exact hall other
      rw [hchains, ← h.verdicts, Observer.observe_onlyInOrder]
      refine and_congr_right fun hbefore => ?_
      rw [hverdict, h.last hbefore channel]
      cases (t.handedOn channel).getLast? with
      | none => simp
      | some last => simp [DirectlyBehind]

theorem Agree.run {s : Publishing} {t : Schedule} (h : Agree s t) (ops : List PublisherOp) :
    Agree (Runs.run publisherStep s ops) (Runs.run scheduleStep t ops) := by
  induction ops generalizing s t with
  | nil => exact h
  | cons op ops ih =>
    cases op with
    | nextSeq publisher channel => exact ih (h.nextSeq publisher channel)
    | publish publisher => exact ih (h.publish publisher)

/-- The trackers report nothing out of order exactly if on each channel every hand-over is of the take directly
behind that of the one before. -/
theorem onlyInOrder_iff (ops : List PublisherOp) :
    OnlyInOrder (run publisherStep .initial ops).observer ↔ Undisturbed (run scheduleStep .initial ops) :=
  (agree_initial.run ops).verdicts

/-- An event, a keepalive, an event: the events' tracker misses the number the keepalive took. -/
theorem keepalive_gap :
    ¬ OnlyInOrder (run publisherStep .initial
        [.nextSeq 0 .events, .publish 0, .nextSeq 1 .control, .publish 1, .nextSeq 0 .events, .publish 0]).observer := by
  decide

end SecOutfall.Agent
