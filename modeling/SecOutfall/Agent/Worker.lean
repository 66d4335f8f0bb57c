import Mathlib.Algebra.Order.Group.Multiset
import Mathlib.Tactic.Abel
import SecOutfall.Foundations.Runs

/-! The bounded job queue with its one worker task: `app/worker.rs`.

The channel is a FIFO of `capacity` places that is open until its receiver is gone, which is when the task
ends. A submit is one step; the worker goes from one point where others run to the next. The handler
returns. -/
namespace SecOutfall.Worker
open Runs
set_option autoImplicit false

/-! ## Model -/

/-- Where the task is: at its `select!`, in the handler, behind the loop, behind the count of what is left,
and gone with the receiver. -/
inductive WorkerPhase (Job : Type) where
  | selecting
  | handling (job : Job)
  | leaving
  | counted
  | ended
  deriving DecidableEq, Repr

/-- `released` says that no sender is left. The last three fields only record: the answer of each submit, and
the jobs behind each raise of `dropped`. -/
structure JobQueue (Job : Type) where
  capacity : ℕ
  queued : List Job
  cancelled : Bool
  released : Bool
  worker : WorkerPhase Job
  dropped : ℕ
  submissions : List (Job × Bool)
  handled : List Job
  counted : List Job
  deriving Repr

inductive TrySend where
  | sent | full | closed
  deriving DecidableEq, Repr

inductive JobOp (Job : Type) where
  | submit (job : Job)
  | work
  | stop
  | release
  deriving DecidableEq, Repr

section
variable {Job : Type}

def spawn (capacity : ℕ) : JobQueue Job := ⟨capacity, [], false, false, .selecting, 0, [], [], []⟩

namespace JobQueue

def count (q : JobQueue Job) (jobs : List Job) : JobQueue Job :=
  { q with dropped := q.dropped + jobs.length, counted := q.counted ++ jobs }

/-- `try_send` of the bounded channel. -/
def trySend (q : JobQueue Job) (job : Job) : TrySend × JobQueue Job :=
  match q.worker with
  | .ended => (.closed, q)
  | _ => if q.queued.length < q.capacity then (.sent, { q with queued := q.queued ++ [job] }) else (.full, q)

def submit (q : JobQueue Job) (job : Job) : Bool × JobQueue Job :=
  match q.trySend job with
  | (.sent, q) => (true, q)
  | (.full, q) => (false, q.count [job])
  | (.closed, q) => (false, q)

/-- The task up to its next point; `rx.max_capacity() - rx.capacity()` is what the channel holds. -/
def work (q : JobQueue Job) : JobQueue Job :=
  match q.worker with
  | .selecting =>
    if q.cancelled then { q with worker := .leaving }
    else
      match q.queued with
      | job :: rest => { q with queued := rest, worker := .handling job }
      | [] => if q.released then { q with worker := .leaving } else q
  | .handling job => { q with handled := q.handled ++ [job], worker := .selecting }
  | .leaving => { q.count q.queued with worker := .counted }
  | .counted => { q with queued := [], worker := .ended }
  | .ended => q

def step (q : JobQueue Job) : JobOp Job → JobQueue Job
  | .submit job =>
    if q.released then q
    else
      let (accepted, q) := q.submit job
      { q with submissions := q.submissions ++ [(job, accepted)] }
  | .work => q.work
  | .stop => { q with cancelled := true }
  | .release => { q with released := true }

/-! ## Accounting -/

def submitted (q : JobQueue Job) : List Job := q.submissions.map (·.1)

def accepted (q : JobQueue Job) : List Job := (q.submissions.filter (·.2)).map (·.1)

def hasEnded (q : JobQueue Job) : Bool :=
  match q.worker with
  | .ended => true
  | _ => false

/-- Every submitted job was handled or is behind the counter, once; the handled ones are the first that were
accepted. -/
structure Accounted (q : JobQueue Job) : Prop where
  once : q.submitted.Perm (q.handled ++ q.counted)
  dropped : q.dropped = q.counted.length
  inOrder : q.handled <+: q.accepted

/-- A submit comes before the worker's count of what is left, or finds the channel full. -/
def inTime (q : JobQueue Job) : JobOp Job → Bool
  | .submit _ =>
    q.released ||
      match q.worker with
      | .counted => q.capacity ≤ q.queued.length
      | .ended => false
      | _ => true
  | _ => true

/-! ## Steps -/

/-- Jobs the worker has in hand or will still count. -/
def pending (q : JobQueue Job) : List Job :=
  match q.worker with
  | .handling job => job :: q.queued
  | .selecting | .leaving => q.queued
  | .counted | .ended => []

def tooLate (q : JobQueue Job) (op : JobOp Job) : List Job :=
  match op with
  | .submit job => if q.inTime (.submit job) then [] else [job]
  | _ => []

/-- The submits of a run that come too late. -/
def tooLateJobs (q : JobQueue Job) : List (JobOp Job) → List Job
  | [] => []
  | op :: ops => q.tooLate op ++ (q.step op).tooLateJobs ops

/-- Nothing is lost but `late`. -/
def Conserved (q : JobQueue Job) (late : List Job) : Prop :=
  (q.submitted : Multiset Job) = q.handled + q.counted + q.pending + late

/-- While the channel is open, what was accepted was handled, is in hand or queued, in that order. -/
def Ordered (q : JobQueue Job) : Prop :=
  match q.worker with
  | .handling job => q.accepted = q.handled ++ job :: q.queued
  | .selecting | .leaving | .counted => q.accepted = q.handled ++ q.queued
  | .ended => q.handled <+: q.accepted

def answered (q : JobQueue Job) (job : Job) (accepted : Bool) : JobQueue Job :=
  { q with submissions := q.submissions ++ [(job, accepted)] }

/-- A submit finds the channel closed, or full, or takes a place in time, or one nobody looks at any more. -/
theorem step_submit (q : JobQueue Job) (job : Job) (hopen : q.released = false) :
    (q.worker = .ended ∧ q.step (.submit job) = q.answered job false ∧ q.tooLate (.submit job) = [job]) ∨
      (q.worker ≠ .ended ∧ q.step (.submit job) = (q.count [job]).answered job false ∧
        q.tooLate (.submit job) = []) ∨
      (q.worker = .counted ∧ q.step (.submit job) = { q with queued := q.queued ++ [job] }.answered job true ∧
        q.tooLate (.submit job) = [job]) ∨
      (q.worker ≠ .counted ∧ q.worker ≠ .ended ∧
        q.step (.submit job) = { q with queued := q.queued ++ [job] }.answered job true ∧
        q.tooLate (.submit job) = []) := by
  by_cases hroom : q.queued.length < q.capacity
  all_goals
    cases hworker : q.worker <;>
      simp [step, tooLate, inTime, submit, trySend, answered, hworker, hroom, hopen, Nat.not_le.mpr, Nat.not_lt.mp]

theorem conserved_submit {q : JobQueue Job} {late : List Job} (h : q.Conserved late) (job : Job) :
    (q.step (.submit job)).Conserved (late ++ q.tooLate (.submit job)) := by
  cases hreleased : q.released with
  | true =>
    have hstep : q.step (.submit job) = q := by rw [step, if_pos hreleased]
    have hnone : q.tooLate (.submit job) = [] := by simp [tooLate, inTime, hreleased]
    rwa [hstep, hnone, List.append_nil]
  | false =>
    have hsubmitted (q' : JobQueue Job) (accepted : Bool) (hsame : q'.submissions = q.submissions) :
        ((q'.answered job accepted).submitted : Multiset Job) = q.handled + q.counted + q.pending + late + [job] := by
      rw [submitted, answered, hsame, List.map_append, ← Multiset.coe_add, ← h]
      rfl
    unfold Conserved
    obtain ⟨-, heq, hlate⟩ | ⟨-, heq, hlate⟩ | ⟨hworker, heq, hlate⟩ | ⟨hcounted, hended, heq, hlate⟩ :=
      q.step_submit job hreleased
    · rw [heq, hlate, hsubmitted q false rfl, ← Multiset.coe_add]
      exact add_assoc _ _ _
    · have hpending : ((q.count [job]).answered job false).pending = q.pending := rfl
      rw [heq, hlate, hsubmitted (q.count [job]) false rfl, hpending, List.append_nil]
      simp only [answered, count, ← Multiset.coe_add]
      abel
    · rw [heq, hlate, hsubmitted { q with queued := q.queued ++ [job] } true rfl, ← Multiset.coe_add]
      simp only [pending, answered, hworker]
      exact add_assoc _ _ _
    · rw [heq, hlate, hsubmitted { q with queued := q.queued ++ [job] } true rfl, List.append_nil]
      have hpending : (({ q with queued := q.queued ++ [job] }.answered job true).pending : Multiset Job) =
          q.pending + [job] := by
        cases hworker : q.worker with
        | handling held =>
          simp only [pending, answered, hworker, Multiset.coe_add, List.cons_append]
        | selecting | leaving => simp only [pending, answered, hworker, Multiset.coe_add]
        | counted => exact absurd hworker hcounted
        | ended => exact absurd hworker hended
      rw [hpending]
      simp only [answered]
      abel

theorem conserved_work {q : JobQueue Job} {late : List Job} (h : q.Conserved late) : q.work.Conserved late := by
  unfold Conserved pending at h
  unfold work
  cases hworker : q.worker with
  | selecting =>
    simp only [hworker] at h
    simp only
    split
    · exact h
    · cases hqueued : q.queued with
      | cons job rest =>
        rw [hqueued] at h
        exact h
      | nil =>
        simp only
        split
        · rw [hqueued] at h
          simpa [Conserved, pending, submitted, hqueued] using h
        · simpa [Conserved, pending, submitted, hworker] using h
  | handling job =>
    simp only [hworker] at h
    refine Eq.trans h ?_
    simp only [pending, ← Multiset.coe_add]
    rw [← List.singleton_append, ← Multiset.coe_add]
    abel
  | leaving =>
    simp only [hworker] at h
    refine Eq.trans h ?_
    simp only [pending, count, ← Multiset.coe_add, Multiset.coe_nil]
    abel
  | counted =>
    simp only [hworker] at h
    exact h
  | ended =>
    simp only
    simpa [Conserved, pending, hworker] using h

theorem conserved_step {q : JobQueue Job} {late : List Job} (h : q.Conserved late) (op : JobOp Job) :
    (q.step op).Conserved (late ++ q.tooLate op) := by
  cases op with
  | submit job => exact conserved_submit h job
  | work =>
    have hnone : q.tooLate .work = [] := rfl
    rw [hnone, List.append_nil]
    exact conserved_work h
  | stop =>
    have hnone : q.tooLate .stop = [] := rfl
    rw [hnone, List.append_nil]
    exact h
  | release =>
    have hnone : q.tooLate .release = [] := rfl
    rw [hnone, List.append_nil]
    exact h

theorem accepted_answered (q : JobQueue Job) (job : Job) :
    (q.answered job true).accepted = q.accepted ++ [job] ∧ (q.answered job false).accepted = q.accepted := by
  simp [accepted, answered]

theorem ordered_submit {q : JobQueue Job} (h : q.Ordered) (job : Job) : (q.step (.submit job)).Ordered := by
  cases hreleased : q.released with
  | true => rwa [step, if_pos hreleased]
  | false =>
    have hrefused (q' : JobQueue Job) (hq' : q' = q ∨ q' = q.count [job]) : (q'.answered job false).Ordered := by
      unfold Ordered
      rw [(accepted_answered q' job).2]
      obtain rfl | rfl := hq' <;> exact h
    have htaken (hopen : q.worker ≠ .ended) : ({ q with queued := q.queued ++ [job] }.answered job true).Ordered := by
      have hsame : { q with queued := q.queued ++ [job] }.accepted = q.accepted := rfl
      unfold Ordered at h ⊢
      rw [(accepted_answered _ job).1, hsame]
      cases hworker : q.worker with
      | ended => exact absurd hworker hopen
      | handling held =>
        simp only [hworker] at h
        simp only [answered]
        rw [h, List.append_assoc, List.cons_append]
      | _ =>
        simp only [hworker] at h
        simp only [answered]
        rw [h, List.append_assoc]
    obtain ⟨-, heq, -⟩ | ⟨-, heq, -⟩ | ⟨hcounted, heq, -⟩ | ⟨-, hopen, heq, -⟩ := q.step_submit job hreleased
    · rw [heq]
      exact hrefused q (.inl rfl)
    · rw [heq]
      exact hrefused _ (.inr rfl)
    · rw [heq]
      exact htaken (by rw [hcounted]; exact fun h => by cases h)
    · rw [heq]
      exact htaken hopen

theorem ordered_work {q : JobQueue Job} (h : q.Ordered) : q.work.Ordered := by
  unfold Ordered at h
  unfold work
  cases hworker : q.worker with
  | selecting =>
    simp only [hworker] at h
    simp only
    split
    · exact h
    · cases hqueued : q.queued with
      | cons job rest =>
        rw [hqueued] at h
        exact h
      | nil =>
        simp only
        split
        · rw [← hqueued]
          exact h
        · simpa only [Ordered, hworker] using h
  | handling job =>
    simp only [hworker] at h
    refine Eq.trans h ?_
    rw [List.append_assoc]
    rfl
  | leaving =>
    simp only [hworker] at h
    exact h
  | counted =>
    simp only [hworker] at h
    exact ⟨q.queued, h.symm⟩
  | ended => simpa only [Ordered, hworker] using h

theorem ordered_step {q : JobQueue Job} (h : q.Ordered) (op : JobOp Job) : (q.step op).Ordered := by
  cases op with
  | submit job => exact ordered_submit h job
  | work => exact ordered_work h
  | stop | release => exact h

theorem dropped_step {q : JobQueue Job} (h : q.dropped = q.counted.length) (op : JobOp Job) :
    (q.step op).dropped = (q.step op).counted.length := by
  have hcount (jobs : List Job) : (q.count jobs).dropped = (q.count jobs).counted.length := by
    rw [count, List.length_append, h]
  cases op with
  | submit job =>
    cases hreleased : q.released with
    | true => rwa [step, if_pos hreleased]
    | false =>
      obtain ⟨-, heq, -⟩ | ⟨-, heq, -⟩ | ⟨-, heq, -⟩ | ⟨-, -, heq, -⟩ := q.step_submit job hreleased
      · rwa [heq]
      · rw [heq]
        exact hcount [job]
      · rwa [heq]
      · rwa [heq]
  | work =>
    simp only [step, work]
    cases q.worker with
    | selecting =>
      simp only
      split
      · exact h
      · cases q.queued with
        | cons job rest => exact h
        | nil =>
          simp only
          split <;> exact h
    | leaving => exact hcount q.queued
    | _ => exact h
  | stop | release => exact h

/-! ## Runs -/

theorem tooLateJobs_eq_nil {q : JobQueue Job} {ops : List (JobOp Job)} :
    q.tooLateJobs ops = [] ↔ Along step (fun q op => q.inTime op = true) q ops := by
  induction ops generalizing q with
  | nil => exact iff_of_true rfl trivial
  | cons op ops ih =>
    have hop : q.tooLate op = [] ↔ q.inTime op = true := by
      cases op with
      | submit job =>
        rw [tooLate]
        split
        case isTrue htime => exact iff_of_true rfl htime
        case isFalse hlate => exact iff_of_false (List.cons_ne_nil _ _) hlate
      | _ => exact iff_of_true rfl rfl
    rw [tooLateJobs, List.append_eq_nil_iff, ih, hop]
    rfl

theorem conserved_run {q : JobQueue Job} {late : List Job} (h : q.Conserved late) (ops : List (JobOp Job)) :
    (run step q ops).Conserved (late ++ q.tooLateJobs ops) := by
  induction ops generalizing q late with
  | nil => simpa [tooLateJobs] using h
  | cons op ops ih =>
    rw [run_cons, tooLateJobs, ← List.append_assoc]
    exact ih (conserved_step h op)

/-- Once the worker has ended, every job is accounted for exactly if every submit came in time. -/
theorem accounted_iff (capacity : ℕ) (ops : List (JobOp Job))
    (hended : (run step (spawn capacity) ops).hasEnded = true) :
    (run step (spawn capacity) ops).Accounted ↔
      Along step (fun q op => q.inTime op = true) (spawn capacity) ops := by
  rw [← tooLateJobs_eq_nil]
  have hconserved := @conserved_run Job (spawn capacity) [] rfl ops
  have hopened : (spawn capacity : JobQueue Job).Ordered := rfl
  have hordered := run_invariant (I := Ordered) (fun _ op h => ordered_step h op) hopened ops
  have hfresh : (spawn capacity : JobQueue Job).dropped = (spawn capacity : JobQueue Job).counted.length := rfl
  have hdropped := run_invariant (I := fun q : JobQueue Job => q.dropped = q.counted.length)
    (fun _ op h => dropped_step h op) hfresh ops
  generalize run step (spawn capacity) ops = q at *
  have hworker : q.worker = .ended := by
    cases hworker : q.worker with
    | ended => rfl
    | _ => simp [hasEnded, hworker] at hended
  generalize (spawn capacity).tooLateJobs ops = late at *
  rw [List.nil_append, Conserved, pending, hworker] at hconserved
  simp only [Ordered, hworker] at hordered
  constructor
  · intro h
    have hcards := congrArg Multiset.card hconserved
    have hlengths := h.once.length_eq
    simp only [Multiset.card_add, Multiset.coe_card, List.length_append, List.length_nil] at hcards hlengths
    exact List.eq_nil_of_length_eq_zero (by omega)
  · rintro rfl
    refine ⟨Multiset.coe_eq_coe.mp ?_, hdropped, hordered⟩
    simpa using hconserved

/-- A submit that finds the worker in time, one too many for the channel, and one left at the stop. -/
theorem stopped_accounted :
    (run step (spawn 1) [.submit 1, .work, .submit 2, .submit 3, .stop, .work, .work, .work, .work]).Accounted :=
  (accounted_iff 1 [.submit 1, .work, .submit 2, .submit 3, .stop, .work, .work, .work, .work] (by decide)).mpr
    (by decide)

/-- A submit behind the end: neither handled nor counted. -/
theorem submitAfterEnd_lost :
    ¬ (run step (spawn 1) [.stop, .work, .work, .work, .submit 1]).Accounted := by
  intro h
  exact absurd h.once.length_eq (by decide)

end JobQueue
end
end SecOutfall.Worker
