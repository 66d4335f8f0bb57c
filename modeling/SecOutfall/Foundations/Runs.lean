import Mathlib.Tactic.Common
import Mathlib.Data.Nat.Notation

/-! Runs of a state machine and loops with a break.

A run folds a step function over a list of inputs. `Along P s ops` says that every step of the
run meets `P` at the state it starts from. A loop iterates a body that may break; `runLoop` gives
it fuel, and a measure that every iteration lowers shows that the fuel never runs out. -/
namespace SecOutfall.Runs
set_option autoImplicit false

variable {σ ο : Type*}

/-! ## Runs -/

def run (step : σ → ο → σ) (s : σ) (ops : List ο) : σ := ops.foldl step s

@[simp] theorem run_nil (step : σ → ο → σ) (s : σ) : run step s [] = s := rfl

@[simp] theorem run_cons (step : σ → ο → σ) (s : σ) (op : ο) (ops : List ο) :
    run step s (op :: ops) = run step (step s op) ops := rfl

theorem run_append (step : σ → ο → σ) (s : σ) (ops ops' : List ο) :
    run step s (ops ++ ops') = run step (run step s ops) ops' := List.foldl_append

/-- Every step of the run meets `P` at the state before it. -/
def Along (step : σ → ο → σ) (P : σ → ο → Prop) : σ → List ο → Prop
  | _, [] => True
  | s, op :: ops => P s op ∧ Along step P (step s op) ops

instance decidableAlong (step : σ → ο → σ) (P : σ → ο → Prop) [∀ s op, Decidable (P s op)] :
    ∀ s ops, Decidable (Along step P s ops)
  | _, [] => isTrue trivial
  | s, op :: ops =>
    have := decidableAlong step P (step s op) ops
    inferInstanceAs (Decidable (P s op ∧ Along step P (step s op) ops))

theorem along_append {step : σ → ο → σ} {P : σ → ο → Prop} {s : σ} {ops ops' : List ο} :
    Along step P s (ops ++ ops') ↔ Along step P s ops ∧ Along step P (run step s ops) ops' := by
  induction ops generalizing s with
  | nil => simp [Along]
  | cons op ops ih => simp [Along, ih, and_assoc]

theorem along_iff_forall {step : σ → ο → σ} {P : σ → ο → Prop} {s : σ} {ops : List ο} :
    Along step P s ops ↔
      ∀ before op after, ops = before ++ op :: after → P (run step s before) op := by
  constructor
  · rintro h before op after rfl
    exact (along_append.mp h).2.1
  · intro h
    induction ops generalizing s with
    | nil => trivial
    | cons op ops ih =>
      refine ⟨h [] op ops rfl, ih fun before op' after heq => ?_⟩
      exact h (op :: before) op' after (by rw [heq, List.cons_append])

/-- What every step that meets `P` preserves holds at the end of a run along `P`. -/
theorem Along.invariant {step : σ → ο → σ} {P : σ → ο → Prop} {I : σ → Prop}
    (hstep : ∀ s op, I s → P s op → I (step s op)) {s : σ} {ops : List ο} (hs : I s)
    (h : Along step P s ops) : I (run step s ops) := by
  induction ops generalizing s with
  | nil => exact hs
  | cons op ops ih => exact ih (hstep s op hs h.1) h.2

theorem Along.mono {step : σ → ο → σ} {P Q : σ → ο → Prop} (hle : ∀ s op, P s op → Q s op) {s : σ}
    {ops : List ο} (h : Along step P s ops) : Along step Q s ops := by
  induction ops generalizing s with
  | nil => trivial
  | cons op ops ih => exact ⟨hle s op h.1, ih h.2⟩

theorem along_true (step : σ → ο → σ) (s : σ) (ops : List ο) :
    Along step (fun _ _ => True) s ops := by
  induction ops generalizing s with
  | nil => trivial
  | cons op ops ih => exact ⟨trivial, ih (step s op)⟩

theorem run_invariant {step : σ → ο → σ} {I : σ → Prop} (hstep : ∀ s op, I s → I (step s op))
    {s : σ} (hs : I s) (ops : List ο) : I (run step s ops) :=
  (along_true step s ops).invariant (fun s op h _ => hstep s op h) hs

/-- A step simulates the abstract step exactly under `P`: then a run is along `P` exactly if every
state it reaches is the one of the abstract run. -/
theorem along_iff_simulates {τ : Type*} {step : σ → ο → σ} {P : σ → ο → Prop} {f : σ → τ}
    {stepT : τ → ο → τ} (hstep : ∀ s op, P s op ↔ f (step s op) = stepT (f s) op) {s : σ}
    {ops : List ο} :
    Along step P s ops ↔
      ∀ before after, ops = before ++ after → f (run step s before) = run stepT (f s) before := by
  induction ops generalizing s with
  | nil =>
    refine ⟨fun _ before after heq => ?_, fun _ => trivial⟩
    rw [(List.append_eq_nil_iff.mp heq.symm).1]
    rfl
  | cons op ops ih =>
    constructor
    · rintro ⟨hop, hops⟩ before after heq
      cases before with
      | nil => rfl
      | cons op' before =>
        obtain ⟨rfl, hrest⟩ := List.cons.inj heq
        rw [run_cons, run_cons, ← (hstep s op).mp hop]
        exact ih.mp hops before after hrest
    · intro h
      have hop : f (step s op) = stepT (f s) op := h [op] ops rfl
      refine ⟨(hstep s op).mpr hop, ih.mpr fun before after heq => ?_⟩
      rw [hop]
      exact h (op :: before) after (by rw [heq, List.cons_append])

/-- Where every step keeps `good` exactly under `P`, a run that starts good ends so exactly along `P`. -/
theorem run_good_iff {step : σ → ο → σ} {P : σ → ο → Prop} {I good : σ → Prop}
    (hinvariant : ∀ s op, I s → I (step s op)) (hstep : ∀ s op, I s → (good (step s op) ↔ good s ∧ P s op))
    {s : σ} (hs : I s) (ops : List ο) : good (run step s ops) ↔ good s ∧ Along step P s ops := by
  induction ops generalizing s with
  | nil => exact ⟨fun h => ⟨h, trivial⟩, fun h => h.1⟩
  | cons op ops ih => rw [run_cons, ih (hinvariant s op hs), hstep s op hs, Along, and_assoc]

/-- Where a good state stays good exactly under `P`, a run is along `P` exactly if all its states are good. -/
theorem along_iff_good {step : σ → ο → σ} {P : σ → ο → Prop} {I good : σ → Prop}
    (hinvariant : ∀ s op, I s → I (step s op)) (hstep : ∀ s op, I s → good s → (good (step s op) ↔ P s op))
    {s : σ} (hs : I s) (hgood : good s) {ops : List ο} :
    Along step P s ops ↔ ∀ before after, ops = before ++ after → good (run step s before) := by
  induction ops generalizing s with
  | nil =>
    refine ⟨fun _ before after heq => ?_, fun _ => trivial⟩
    rw [(List.append_eq_nil_iff.mp heq.symm).1]
    exact hgood
  | cons op ops ih =>
    constructor
    · rintro ⟨hop, hops⟩ before after heq
      cases before with
      | nil => exact hgood
      | cons op' before =>
        obtain ⟨rfl, hrest⟩ := List.cons.inj heq
        exact (ih (hinvariant s op hs) ((hstep s op hs hgood).mpr hop)).mp hops before after hrest
    · intro h
      have hnext : good (step s op) := h [op] ops rfl
      refine ⟨(hstep s op hs hgood).mp hnext, (ih (hinvariant s op hs) hnext).mpr fun before after heq => ?_⟩
      exact h (op :: before) after (by rw [heq, List.cons_append])

/-- Some step, with the steps before it, is as `Q` says. -/
def Occurs (Q : List ο → ο → Prop) (ops : List ο) : Prop :=
  ∃ before op after, ops = before ++ op :: after ∧ Q before op

theorem not_occurs_nil (Q : List ο → ο → Prop) : ¬ Occurs Q [] := by
  rintro ⟨before, op, after, hops, _⟩
  simp at hops

theorem occurs_concat {Q : List ο → ο → Prop} {ops : List ο} {op : ο} :
    Occurs Q (ops ++ [op]) ↔ Occurs Q ops ∨ Q ops op := by
  constructor
  · rintro ⟨before, op', after, hops, h⟩
    rcases after.eq_nil_or_concat with rfl | ⟨after, last, rfl⟩
    · obtain ⟨rfl, hlast⟩ := List.append_inj' hops rfl
      cases hlast
      exact .inr h
    · have hsplit : ops ++ [op] = (before ++ op' :: after) ++ [last] := by simp [hops]
      obtain ⟨rfl, _⟩ := List.append_inj' hsplit rfl
      exact .inl ⟨before, op', after, rfl, h⟩
  · rintro (⟨before, op', after, rfl, h⟩ | h)
    · exact ⟨before, op', after ++ [op], by simp, h⟩
    · exact ⟨ops, op, [], rfl, h⟩

/-- Some number of repetitions of one step lead there. -/
def Repeats (step : σ → ο → σ) (op : ο) (s s' : σ) : Prop := ∃ n, run step s (List.replicate n op) = s'

theorem Repeats.single {step : σ → ο → σ} {op : ο} {s s' : σ} (h : step s op = s') :
    Repeats step op s s' := ⟨1, h⟩

theorem Repeats.trans {step : σ → ο → σ} {op : ο} {s s' s'' : σ} (h : Repeats step op s s')
    (h' : Repeats step op s' s'') : Repeats step op s s'' := by
  obtain ⟨n, rfl⟩ := h
  obtain ⟨m, rfl⟩ := h'
  refine ⟨n + m, ?_⟩
  rw [← List.replicate_append_replicate, run_append]

/-! ## Loops -/

/-- Iterate `body` until it breaks, at most `fuel` times. -/
def runLoop (body : σ → Option σ) : ℕ → σ → σ
  | 0, s => s
  | fuel + 1, s =>
    match body s with
    | none => s
    | some s' => runLoop body fuel s'

theorem runLoop_invariant {body : σ → Option σ} {I : σ → Prop}
    (hbody : ∀ s s', body s = some s' → I s → I s') (fuel : ℕ) {s : σ} (hs : I s) :
    I (runLoop body fuel s) := by
  induction fuel generalizing s with
  | zero => exact hs
  | succ fuel ih =>
    rw [runLoop]
    cases hb : body s with
    | none => exact hs
    | some s' => exact ih (hbody s s' hb hs)

theorem runLoop_breaks {body : σ → Option σ} (measure : σ → ℕ)
    (hbody : ∀ s s', body s = some s' → measure s' < measure s) {fuel : ℕ} {s : σ}
    (hfuel : measure s ≤ fuel) : body (runLoop body fuel s) = none := by
  induction fuel generalizing s with
  | zero =>
    rw [runLoop]
    cases hb : body s with
    | none => rfl
    | some s' =>
      have hlt := hbody s s' hb
      omega
  | succ fuel ih =>
    rw [runLoop]
    cases hb : body s with
    | none => exact hb
    | some s' =>
      have hlt := hbody s s' hb
      exact ih (by omega)

end SecOutfall.Runs
