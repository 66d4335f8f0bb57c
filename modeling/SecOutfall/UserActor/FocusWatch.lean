import SecOutfall.Agent.ScreenshotIntake
import Mathlib.Data.List.Perm.Basic
import Mathlib.Data.List.Nodup

/-! Screenshots on foreground changes: `plugins/focus_watch.rs` of the user actor.

Any number of calls of `handle_focus` are under way at once. A step of a call is what it does up to the next
point where another one can come between. -/
namespace SecOutfall.UserActor
open Runs ScreenshotIntake
set_option autoImplicit false

/-! ## Model -/

structure UserActorConfig where
  screencapture : Bool
  maxScreenshotsPerSession : UInt32

/-- What a call does next: `checked` has loaded the counter, `releasing` is behind a failure. -/
inductive Phase where
  | checked (seq : UInt32)
  | capturing (seq : UInt32)
  | sending (seq : UInt32) (jpeg : List UInt8)
  | releasing (seq : UInt32)
  | returned
  deriving DecidableEq, Repr

inductive BusEvent where
  | foregroundChanged
  | captureQuotaExhausted
  | screenshotTaken (seq : UInt32)
  deriving DecidableEq, Repr

structure FocusWatch where
  captured : UInt32
  quotaExhausted : Bool
  bus : List BusEvent
  calls : List Phase
  shipped : List ScreenshotFrame

/-- `focus` begins a call, once the config is pushed or before. -/
inductive FocusOp where
  | focus (pushed : Bool)
  | reserve (call : ℕ)
  | capture (call : ℕ) (jpeg : Option (List UInt8))
  | send (call : ℕ) (taken : Bool)
  | release (call : ℕ)
  deriving DecidableEq, Repr

def boot : FocusWatch := ⟨0, false, [], [], []⟩

def goto (s : FocusWatch) (call : ℕ) (phase : Phase) : FocusWatch := { s with calls := s.calls.set call phase }

def publish (s : FocusWatch) (event : BusEvent) : FocusWatch := { s with bus := s.bus ++ [event] }

section
variable (config : UserActorConfig)

/-- `handle_focus` up to the check of the quota. -/
def focusChanged (s : FocusWatch) : FocusWatch :=
  let s := publish s .foregroundChanged
  if !config.screencapture then s
  else if config.maxScreenshotsPerSession ≤ s.captured then
    if s.quotaExhausted then s else publish { s with quotaExhausted := true } .captureQuotaExhausted
  else { s with calls := s.calls ++ [.checked s.captured] }

def step (s : FocusWatch) : FocusOp → FocusWatch
  | .focus pushed => if pushed then focusChanged config s else s
  | .reserve call =>
    match s.calls[call]? with
    | some (.checked seq) =>
      if s.captured = seq then goto { s with captured := seq + 1 } call (.capturing seq) else goto s call .returned
    | _ => s
  | .capture call jpeg =>
    match s.calls[call]? with
    | some (.capturing seq) =>
      match jpeg with
      | some jpeg => goto s call (.sending seq jpeg)
      | none => goto s call (.releasing seq)
    | _ => s
  | .send call taken =>
    match s.calls[call]? with
    | some (.sending seq jpeg) =>
      if taken then
        publish (goto { s with shipped := s.shipped ++ [⟨seq, jpeg⟩] } call .returned) (.screenshotTaken seq)
      else goto s call (.releasing seq)
    | _ => s
  | .release call =>
    match s.calls[call]? with
    | some (.releasing _) => goto { s with captured := s.captured - 1 } call .returned
    | _ => s

/-- What is shipped keeps to the quota under numbers of its own, and none of the files that the agent saves of it
is written twice. -/
structure Slotted (s : FocusWatch) : Prop where
  bounded : s.shipped.length ≤ config.maxScreenshotsPerSession.toNat
  distinct : (s.shipped.map (·.seq)).Nodup
  kept : ∀ (intake : ScreenshotsConfig) (arrivals : List Arrival), (arrivals.map (·.frame)).Sublist s.shipped →
    ((saved intake arrivals).map (·.1)).Nodup

end

/-- A slot that is released is the last one taken. -/
def inOrder (s : FocusWatch) : FocusOp → Bool
  | .release call =>
    match s.calls[call]? with
    | some (.releasing seq) => s.captured == seq + 1
    | _ => true
  | _ => true

/-! ## Slots -/

/-- The slot a call holds. -/
def Phase.slots : Phase → List ℕ
  | .capturing seq => [seq.toNat]
  | .sending seq _ => [seq.toNat]
  | .releasing seq => [seq.toNat]
  | _ => []

def held (s : FocusWatch) : List ℕ := s.calls.flatMap Phase.slots ++ s.shipped.map (·.seq.toNat)

/-- The counter counts the slots that are held. -/
structure Counted (config : UserActorConfig) (s : FocusWatch) : Prop where
  length : (held s).length = s.captured.toNat
  quota : s.captured ≤ config.maxScreenshotsPerSession
  checked : ∀ seq, .checked seq ∈ s.calls → seq < config.maxScreenshotsPerSession

/-- The slots that are held are those below the counter, each once. -/
def Dense (s : FocusWatch) : Prop := (held s).Perm (List.range s.captured.toNat)

section
variable {config : UserActorConfig} {s s' : FocusWatch} {call : ℕ} {phase next : Phase}

theorem held_goto (h : s.calls[call]? = some phase) :
    (phase.slots ++ held (goto s call next)).Perm (next.slots ++ held s) := by
  obtain ⟨hlt, hget⟩ := List.getElem?_eq_some_iff.mp h
  have hset := (List.set_perm_cons_eraseIdx hlt next).flatMap_right Phase.slots
  have herase := (List.getElem_cons_eraseIdx_perm hlt).flatMap_right Phase.slots
  rw [List.flatMap_cons] at hset herase
  rw [hget] at herase
  have hcalls : (phase.slots ++ (s.calls.set call next).flatMap Phase.slots).Perm
      (next.slots ++ s.calls.flatMap Phase.slots) :=
    (hset.append_left phase.slots).trans
      ((List.perm_append_comm_assoc phase.slots next.slots _).trans (herase.append_left next.slots))
  simpa only [held, goto, List.append_assoc] using hcalls.append_right (s.shipped.map (·.seq.toNat))

theorem toNat_succ {seq bound : UInt32} (h : seq < bound) : (seq + 1).toNat = seq.toNat + 1 := by
  have hlt := UInt32.lt_iff_toNat_lt.mp h
  have hbound := bound.toNat_lt
  rw [UInt32.toNat_add, UInt32.toNat_one, Nat.mod_eq_of_lt (by omega)]

theorem toNat_pred {seq : UInt32} (h : 0 < seq.toNat) : (seq - 1).toNat = seq.toNat - 1 := by
  have hle : (1 : UInt32) ≤ seq := UInt32.le_iff_toNat_le.mpr h
  rw [UInt32.toNat_sub_of_le _ _ hle, UInt32.toNat_one]

theorem focusChanged_held (s : FocusWatch) : (focusChanged config s).captured = s.captured ∧
    (held (focusChanged config s)).Perm (held s) := by
  unfold focusChanged
  dsimp only
  split
  · exact ⟨rfl, .refl _⟩
  · split
    · split <;> exact ⟨rfl, .refl _⟩
    · exact ⟨rfl, by simp [held, publish, Phase.slots]⟩

/-- A step leaves the slots, takes the one the counter names, or gives one back. -/
theorem Counted.step_cases (h : Counted config s) (op : FocusOp) :
    (inOrder s op = true ∧ (step config s op).captured = s.captured ∧ (held (step config s op)).Perm (held s)) ∨
    (inOrder s op = true ∧ s.captured < config.maxScreenshotsPerSession ∧
      (step config s op).captured = s.captured + 1 ∧
      (held (step config s op)).Perm (s.captured.toNat :: held s)) ∨
    ∃ seq, inOrder s op = (s.captured == seq + 1) ∧ (step config s op).captured = s.captured - 1 ∧
      (held s).Perm (seq.toNat :: held (step config s op)) := by
  cases op with
  | focus pushed =>
    cases pushed with
    | false => exact .inl ⟨rfl, rfl, .refl _⟩
    | true => exact .inl ⟨rfl, focusChanged_held s⟩
  | reserve call =>
    dsimp only [step]
    split
    case h_1 seq hcall =>
      split
      case isTrue hseq =>
        subst hseq
        exact .inr (.inl ⟨rfl, h.checked _ (List.mem_of_getElem? hcall), rfl, held_goto hcall⟩)
      case isFalse => exact .inl ⟨rfl, rfl, held_goto hcall⟩
    case h_2 => exact .inl ⟨rfl, rfl, .refl _⟩
  | capture call jpeg =>
    refine .inl ⟨rfl, ?_⟩
    dsimp only [step]
    split
    case h_1 seq hcall => cases jpeg <;> exact ⟨rfl, (List.perm_cons _).mp (held_goto hcall)⟩
    case h_2 => exact ⟨rfl, .refl _⟩
  | send call taken =>
    refine .inl ⟨rfl, ?_⟩
    dsimp only [step]
    split
    case h_1 seq jpeg hcall =>
      cases taken with
      | false => exact ⟨rfl, (List.perm_cons _).mp (held_goto hcall)⟩
      | true =>
        have hgoto : (seq.toNat :: held (goto s call .returned)).Perm (held s) := held_goto hcall
        refine ⟨rfl, .trans ?_ hgoto⟩
        simp [held, goto, publish, ← List.append_assoc]
    case h_2 => exact ⟨rfl, .refl _⟩
  | release call =>
    dsimp only [step, inOrder]
    split
    case h_1 seq hcall =>
      have hgoto : (seq.toNat :: held (goto { s with captured := s.captured - 1 } call .returned)).Perm (held s) :=
        held_goto (s := { s with captured := s.captured - 1 }) hcall
      exact .inr (.inr ⟨seq, rfl, rfl, hgoto.symm⟩)
    case h_2 => exact .inl ⟨rfl, rfl, .refl _⟩

theorem mem_calls_goto (h : phase ∈ (goto s call next).calls) : phase ∈ s.calls ∨ phase = next :=
  List.mem_or_eq_of_mem_set h

theorem focusChanged_checked (h : ∀ seq, .checked seq ∈ s.calls → seq < config.maxScreenshotsPerSession)
    (seq : UInt32) (hmem : .checked seq ∈ (focusChanged config s).calls) : seq < config.maxScreenshotsPerSession := by
  unfold focusChanged at hmem
  dsimp only at hmem
  split at hmem
  · exact h seq hmem
  · split at hmem
    · split at hmem <;> exact h seq hmem
    · obtain hmem | hmem := List.mem_append.mp hmem
      · exact h seq hmem
      · cases List.mem_singleton.mp hmem
        exact UInt32.not_le.mp ‹_›

/-- A call that has loaded the counter found it below the quota. -/
theorem checked_step (h : ∀ seq, .checked seq ∈ s.calls → seq < config.maxScreenshotsPerSession) (op : FocusOp)
    (seq : UInt32) (hmem : .checked seq ∈ (step config s op).calls) : seq < config.maxScreenshotsPerSession := by
  have hgoto {s' : FocusWatch} {call : ℕ} {next : Phase} (hcalls : s'.calls = s.calls)
      (hnext : ∀ seq, next ≠ .checked seq) (hmem : .checked seq ∈ (goto s' call next).calls) :
      seq < config.maxScreenshotsPerSession := by
    obtain hmem | heq := mem_calls_goto hmem
    · exact h seq (hcalls ▸ hmem)
    · exact absurd heq.symm (hnext seq)
  cases op with
  | focus pushed =>
    cases pushed with
    | false => exact h seq hmem
    | true => exact focusChanged_checked h seq hmem
  | reserve call =>
    dsimp only [step] at hmem
    split at hmem
    · split at hmem
      · exact hgoto rfl (fun _ heq => by cases heq) hmem
      · exact hgoto rfl (fun _ heq => by cases heq) hmem
    · exact h seq hmem
  | capture call jpeg =>
    dsimp only [step] at hmem
    split at hmem
    · split at hmem
      · exact hgoto rfl (fun _ heq => by cases heq) hmem
      · exact hgoto rfl (fun _ heq => by cases heq) hmem
    · exact h seq hmem
  | send call taken =>
    dsimp only [step] at hmem
    split at hmem
    · split at hmem
      · exact hgoto rfl (fun _ heq => by cases heq) hmem
      · exact hgoto rfl (fun _ heq => by cases heq) hmem
    · exact h seq hmem
  | release call =>
    dsimp only [step] at hmem
    split at hmem
    · exact hgoto rfl (fun _ heq => by cases heq) hmem
    · exact h seq hmem

theorem Counted.step (h : Counted config s) (op : FocusOp) : Counted config (step config s op) := by
  have hchecked := checked_step h.checked op
  have hquota := UInt32.le_iff_toNat_le.mp h.quota
  obtain ⟨-, hcaptured, hheld⟩ | ⟨-, hlt, hcaptured, hheld⟩ | ⟨seq, -, hcaptured, hheld⟩ := h.step_cases op
  · exact ⟨by rw [hcaptured, hheld.length_eq, h.length], by rw [hcaptured]; exact h.quota, hchecked⟩
  · have hlength := hheld.length_eq
    have hnat := toNat_succ hlt
    have hlt' := UInt32.lt_iff_toNat_lt.mp hlt
    rw [List.length_cons, h.length] at hlength
    refine ⟨by rw [hcaptured, hnat, hlength], UInt32.le_iff_toNat_le.mpr ?_, hchecked⟩
    rw [hcaptured, hnat]
    omega
  · have hlength := hheld.length_eq
    rw [List.length_cons, h.length] at hlength
    have hnat : (s.captured - 1).toNat = s.captured.toNat - 1 := toNat_pred (by omega)
    refine ⟨?_, UInt32.le_iff_toNat_le.mpr ?_, hchecked⟩
    · rw [hcaptured, hnat]
      omega
    · rw [hcaptured, hnat]
      omega

theorem range_perm (n : ℕ) : (List.range (n + 1)).Perm (n :: List.range n) := by
  rw [List.range_succ]
  exact List.perm_append_singleton n _

/-- The slots stay dense exactly if the one that is given back is the last. -/
theorem Counted.dense_iff (h : Counted config s) (hdense : Dense s) (op : FocusOp) :
    Dense (UserActor.step config s op) ↔ inOrder s op = true := by
  unfold Dense at hdense ⊢
  obtain ⟨horder, hcaptured, hheld⟩ | ⟨horder, hlt, hcaptured, hheld⟩ | ⟨seq, horder, hcaptured, hheld⟩ :=
    h.step_cases op
  · rw [hcaptured]
    exact iff_of_true (hheld.trans hdense) horder
  · rw [hcaptured, toNat_succ hlt]
    exact iff_of_true (hheld.trans ((hdense.cons _).trans (range_perm _).symm)) horder
  · have hlength := hheld.length_eq
    rw [List.length_cons, h.length] at hlength
    have hpred : s.captured.toNat = (s.captured - 1).toNat + 1 := by
      rw [toNat_pred (by omega)]
      omega
    have hcons : (seq.toNat :: held (UserActor.step config s op)).Perm
        ((s.captured - 1).toNat :: List.range (s.captured - 1).toNat) :=
      hheld.symm.trans (hdense.trans (hpred ▸ range_perm _))
    have hseq : inOrder s op = true ↔ seq.toNat = (s.captured - 1).toNat := by
      rw [horder, beq_iff_eq, UInt32.toNat_inj]
      constructor
      · intro heq
        rw [heq, UInt32.add_sub_cancel]
      · intro heq
        rw [heq, UInt32.sub_add_cancel]
    rw [hseq, hcaptured]
    constructor
    · intro hrange
      obtain heq | hmem := List.mem_cons.mp (hcons.symm.subset List.mem_cons_self)
      · exact heq.symm
      · exact absurd (List.mem_range.mp (hrange.subset hmem)) (Nat.lt_irrefl _)
    · intro heq
      rw [heq] at hcons
      exact hcons.cons_inv

/-! ## Runs -/

theorem counted_boot (config : UserActorConfig) : Counted config boot :=
  ⟨rfl, UInt32.zero_le, fun _ hmem => by cases hmem⟩

theorem shipped_le_quota (h : Counted config s) : s.shipped.length ≤ config.maxScreenshotsPerSession.toNat := by
  have hlength := h.length
  have hquota := UInt32.le_iff_toNat_le.mp h.quota
  rw [held, List.length_append, List.length_map] at hlength
  omega

theorem Dense.distinct (h : Dense s) : (s.shipped.map (·.seq)).Nodup := by
  have hnodup := (List.nodup_append.mp (h.nodup_iff.mpr List.nodup_range)).2.1
  have hmap : (s.shipped.map (·.seq)).map UInt32.toNat = s.shipped.map (·.seq.toNat) := List.map_map
  rw [← hmap] at hnodup
  exact List.Nodup.of_map _ hnodup

theorem Counted.slotted (h : Counted config s) (hdense : Dense s) : Slotted config s := by
  refine ⟨shipped_le_quota h, hdense.distinct, fun intake arrivals hsublist => saved_nodup ?_⟩
  have hseqs := (hsublist.map (·.seq)).nodup hdense.distinct
  rwa [List.map_map] at hseqs

/-- Every slot is given back as the last one exactly if the slots are dense all along. -/
theorem along_iff_dense (config : UserActorConfig) (ops : List FocusOp) :
    Along (step config) (fun s op => inOrder s op = true) boot ops ↔
      ∀ before after, ops = before ++ after → Dense (run (step config) boot before) := by
  have hcounted (s : FocusWatch) (op : FocusOp) (h : Counted config s) : Counted config (step config s op) := h.step op
  have hdense (s : FocusWatch) (op : FocusOp) (h : Counted config s) (hdense : Dense s) :
      Dense (step config s op) ↔ inOrder s op = true := h.dense_iff hdense op
  have hboot : Dense boot := .refl _
  exact along_iff_good hcounted hdense (counted_boot config) hboot

theorem run_slotted (config : UserActorConfig) (ops : List FocusOp)
    (h : Along (step config) (fun s op => inOrder s op = true) boot ops) :
    ∀ before after, ops = before ++ after → Slotted config (run (step config) boot before) := by
  intro before after heq
  have hstep (s : FocusWatch) (op : FocusOp) (h : Counted config s) : Counted config (step config s op) := h.step op
  have hcounted := run_invariant hstep (counted_boot config) before
  exact hcounted.slotted ((along_iff_dense config ops).mp h before after heq)

def quotaTwo : UserActorConfig := ⟨true, 2⟩

/-- The first capture fails before the next one begins. -/
theorem failureAlone_slotted : Slotted quotaTwo (run (step quotaTwo) boot
    [.focus true, .reserve 0, .capture 0 none, .release 0, .focus true, .reserve 1, .capture 1 (some [7]),
      .send 1 true]) :=
  run_slotted quotaTwo _ (by decide) _ [] (List.append_nil _).symm

/-- The first capture fails while the second one is under way; the third takes the number of the second. -/
theorem failureOverlapping_twice : ¬ Slotted quotaTwo (run (step quotaTwo) boot
    [.focus true, .reserve 0, .focus true, .reserve 1, .capture 0 none, .release 0, .capture 1 (some [7]),
      .send 1 true, .focus true, .reserve 2, .capture 2 (some [8]), .send 2 true]) := by
  intro h
  exact absurd h.distinct (by decide)

end
end SecOutfall.UserActor
