import SecOutfall.Foundations.Runs
import SecOutfall.Injection.Ledger

/-! What becomes of the counters of the injection attempts.

`TryInjectLocked` claims an entry in one region and counts the outcome in a later one, on the entry
the pid has by then. The audit keeps the number of claims beside the engine. -/
namespace SecOutfall.Injection
open Control Runs
set_option autoImplicit false

variable (upcase : UInt16 → UInt16)

/-! ## Claims and their counts -/

/-- Attempts a step claims: only the exchange Ready to Injected puts one in flight. -/
def attemptsClaimed (s : Engine) (op : Op) : ℕ := (step upcase s op).attempts.length - s.attempts.length

structure Audit where
  engine : Engine
  claimed : ℕ

def Audit.step (a : Audit) (op : Op) : Audit :=
  ⟨Injection.step upcase a.engine op, a.claimed + attemptsClaimed upcase a.engine op⟩

/-- The outcome of the attempt that the step settles. -/
def settling (s : Engine) : Op → Option AttemptResult
  | .fixup k => (s.attempts[k]?).bind Attempt.result
  | _ => none

/-- A settled attempt adds one to its counter, and nothing else moves the counters. -/
def CountsOnce (s : Engine) (op : Op) : Prop :=
  match settling s op with
  | none =>
    (step upcase s op).injectionsQueued = s.injectionsQueued ∧
      (step upcase s op).injectionsFailed = s.injectionsFailed
  | some .queued =>
    (step upcase s op).injectionsQueued = s.injectionsQueued + 1 ∧
      (step upcase s op).injectionsFailed = s.injectionsFailed
  | some _ =>
    (step upcase s op).injectionsQueued = s.injectionsQueued ∧
      (step upcase s op).injectionsFailed = s.injectionsFailed + 1

def Audit.Balanced (a : Audit) : Prop :=
  a.engine.injectionsQueued + a.engine.injectionsFailed + a.engine.attempts.length = a.claimed

/-- The fixup counts: the pid still has an entry and its process was found. -/
def Countable (s : Engine) : Op → Prop
  | .fixup k => ∀ attempt ∈ s.attempts[k]?, ∀ result ∈ attempt.result,
      findEntry s.ledger attempt.pid ≠ none ∧ result ≠ .lookupFailed
  | _ => True

instance (s : Engine) (op : Op) : Decidable (CountsOnce upcase s op) := by
  unfold CountsOnce
  split <;> infer_instance

instance (s : Engine) (op : Op) : Decidable (Countable s op) := by
  cases op <;> unfold Countable <;> infer_instance

/-! ## Steps -/

theorem tryInjectLocked_counts (s : Engine) (pid : UInt32) :
    (tryInjectLocked s pid).injectionsQueued = s.injectionsQueued ∧
      (tryInjectLocked s pid).injectionsFailed = s.injectionsFailed ∧
      s.attempts.length ≤ (tryInjectLocked s pid).attempts.length := by
  obtain heq | ⟨entry, thread, path, -, -, heq⟩ := tryInjectLocked_cases s pid
  · rw [heq]
    exact ⟨rfl, rfl, le_rfl⟩
  · rw [heq]
    exact ⟨rfl, rfl, by simp⟩

theorem runAttempt_counts (s : Engine) (k : ℕ) (lookupOk queueOk : Bool) :
    (runAttempt s k lookupOk queueOk).injectionsQueued = s.injectionsQueued ∧
      (runAttempt s k lookupOk queueOk).injectionsFailed = s.injectionsFailed ∧
      s.attempts.length ≤ (runAttempt s k lookupOk queueOk).attempts.length := by
  obtain ⟨heq, -⟩ | ⟨attempt, -, -, ⟨result, -, heq⟩ | ⟨rva, heq⟩⟩ :=
    runAttempt_cases s k lookupOk queueOk
  · rw [heq]
    exact ⟨rfl, rfl, le_rfl⟩
  · rw [heq]
    exact ⟨rfl, rfl, by simp⟩
  · rw [heq]
    exact ⟨rfl, rfl, by simp⟩

theorem fixup_unsettled {s : Engine} {k : ℕ} (h : settling s (.fixup k) = none) : fixup s k = s := by
  unfold fixup
  split
  · rfl
  · rename_i attempt hget
    have hresult : attempt.result = none := by simpa [settling, hget] using h
    rw [hresult]

theorem step_unsettled {s : Engine} {op : Op} (h : settling s op = none) :
    (step upcase s op).injectionsQueued = s.injectionsQueued ∧
      (step upcase s op).injectionsFailed = s.injectionsFailed ∧
      s.attempts.length ≤ (step upcase s op).attempts.length := by
  cases op with
  | setPolicy policy => exact ⟨rfl, rfl, le_rfl⟩
  | processCreate pid createTime name tick allocated =>
    simp only [step, onProcessCreate]
    split_ifs
    · exact ⟨rfl, rfl, le_rfl⟩
    · exact ⟨rfl, rfl, le_rfl⟩
    · split <;> exact ⟨rfl, rfl, le_rfl⟩
  | firstThread pid thread =>
    simp only [step, onFirstThread]
    split
    · exact ⟨rfl, rfl, le_rfl⟩
    · exact tryInjectLocked_counts _ pid
  | resolve name resolved =>
    simp only [step, resolveLdrLoadDll]
    split <;> exact ⟨rfl, rfl, le_rfl⟩
  | imageLoad pid base name =>
    simp only [step, onImageLoad]
    split
    · exact ⟨rfl, rfl, le_rfl⟩
    · exact tryInjectLocked_counts _ pid
  | attempt k lookupOk queueOk => exact runAttempt_counts s k lookupOk queueOk
  | fixup k =>
    rw [step, fixup_unsettled h]
    exact ⟨rfl, rfl, le_rfl⟩
  | processExit pid => exact ⟨rfl, rfl, le_rfl⟩

/-- The settled attempt leaves; it is counted if the pid has an entry and the lookup did not fail. -/
theorem fixup_settled {s : Engine} {k : ℕ} {attempt : Attempt} {result : AttemptResult}
    (hget : s.attempts[k]? = some attempt) (hresult : attempt.result = some result) :
    (fixup s k).attempts.length + 1 = s.attempts.length ∧
      (fixup s k).injectionsQueued = s.injectionsQueued +
        (if findEntry s.ledger attempt.pid ≠ none ∧ result = .queued then 1 else 0) ∧
      (fixup s k).injectionsFailed = s.injectionsFailed +
        (if findEntry s.ledger attempt.pid ≠ none ∧ result = .queueFailed then 1 else 0) := by
  have hlt : k < s.attempts.length := (List.getElem?_eq_some_iff.mp hget).1
  refine ⟨?_, ?_⟩
  · rw [(fixup_rest hget (by simp [hresult])).1, List.length_eraseIdx_of_lt hlt]
    omega
  · simp only [fixup, hget, hresult]
    cases hfind : findEntry s.ledger attempt.pid with
    | none => simp
    | some entry => cases result <;> simp

theorem countsOnce_iff (s : Engine) (op : Op) : CountsOnce upcase s op ↔ Countable s op := by
  cases hsettling : settling s op with
  | none =>
    obtain ⟨hqueued, hfailed, -⟩ := step_unsettled upcase hsettling
    simp only [CountsOnce, hsettling, hqueued, hfailed, and_self, true_iff]
    cases op with
    | fixup k =>
      intro attempt hget result hresult
      rw [Option.mem_def] at hget hresult
      simp [settling, hget, hresult] at hsettling
    | _ => trivial
  | some result =>
    cases op with
    | fixup k =>
      obtain ⟨attempt, hget, hresult⟩ := Option.bind_eq_some_iff.mp hsettling
      obtain ⟨-, hqueued, hfailed⟩ := fixup_settled hget hresult
      have hcountable : Countable s (.fixup k) ↔
          findEntry s.ledger attempt.pid ≠ none ∧ result ≠ .lookupFailed := by
        simp [Countable, hget, hresult]
      rw [hcountable]
      by_cases hentry : findEntry s.ledger attempt.pid = none
      · cases result <;> simp [CountsOnce, hsettling, step, hqueued, hfailed, hentry]
      · cases result <;> simp [CountsOnce, hsettling, step, hqueued, hfailed, hentry]
    | _ => simp [settling] at hsettling

theorem Audit.Balanced.step {a : Audit} (h : a.Balanced) {op : Op} (hop : CountsOnce upcase a.engine op) :
    (a.step upcase op).Balanced := by
  unfold Balanced at h ⊢
  cases hsettling : settling a.engine op with
  | none =>
    obtain ⟨hqueued, hfailed, hle⟩ := step_unsettled upcase hsettling
    simp only [Audit.step, attemptsClaimed]
    omega
  | some result =>
    cases op with
    | fixup k =>
      obtain ⟨attempt, hget, hresult⟩ := Option.bind_eq_some_iff.mp hsettling
      obtain ⟨hlength, -, -⟩ := fixup_settled hget hresult
      simp only [CountsOnce, hsettling] at hop
      simp only [Audit.step, attemptsClaimed]
      cases result <;> simp only [Injection.step] at hop ⊢ <;> omega
    | _ => simp [settling] at hsettling

/-! ## Runs -/

/-- Every attempt of an interleaving is counted once, so the counters and the attempts in flight
sum up to the claims in every state, exactly if each fixup finds an entry for an attempt whose
process lookup succeeded. -/
theorem run_counts_once_iff (policy : Policy) (ops : List Op) :
    (Along (Audit.step upcase) (fun a op => CountsOnce upcase a.engine op) ⟨init policy, 0⟩ ops ∧
        ∀ before after, ops = before ++ after →
          (run (Audit.step upcase) ⟨init policy, 0⟩ before).Balanced) ↔
      Along (Audit.step upcase) (fun a op => Countable a.engine op) ⟨init policy, 0⟩ ops := by
  simp only [countsOnce_iff]
  refine ⟨And.left, fun h => ⟨h, ?_⟩⟩
  rintro before after rfl
  refine (along_append.mp h).1.invariant ?_ (show Audit.Balanced ⟨init policy, 0⟩ from rfl)
  intro a op ha hop
  exact ha.step upcase ((countsOnce_iff upcase a.engine op).mpr hop)

/-! ## An exit during the attempt -/

/-- The APC is queued and the process exits before the fixup: nothing is counted. -/
def exitDuringAttempt : List Op :=
  [.processCreate 4000 7 none 0 true, .resolve (wide "\\ntdll.dll") (some 0x5000),
    .imageLoad 4000 0x7FF0 (wide "\\ntdll.dll"), .firstThread 4000 1, .attempt 0 true true,
    .processExit 4000, .fixup 0]

theorem exitDuringAttempt_uncounted :
    ¬ Along (Audit.step id) (fun a op => CountsOnce id a.engine op)
        ⟨init ⟨true, some (wide "\\sensor.dll"), ⟨false, []⟩⟩, 0⟩ exitDuringAttempt ∧
      ¬ (run (Audit.step id) ⟨init ⟨true, some (wide "\\sensor.dll"), ⟨false, []⟩⟩, 0⟩
        exitDuringAttempt).Balanced := by
  unfold Audit.Balanced
  decide

end SecOutfall.Injection
