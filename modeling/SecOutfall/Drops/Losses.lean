import SecOutfall.Drops.Evidence

/-! No drop of a watched stream is lost in silence.

Once a write has returned, either something was counted or the stream has its context, so the next
cleanup finds one. Whoever took the capture owns it until it is emitted or counted. -/
namespace SecOutfall.Drops
open Control Runs
set_option autoImplicit false

/-! ## Callbacks and their references -/

def Callback.refers : Callback → Bool
  | .contextAllocated | .cleaning _ => false
  | _ => true

def Callback.afterWrite : Callback → Bool
  | .cleaning afterWrite | .claiming afterWrite | .copying afterWrite | .emittingCopy afterWrite =>
    afterWrite
  | _ => false

namespace Stream

/-- A callback with a reference has a context, and one that began after a write knows that. -/
structure Coherent (s : Stream) : Prop where
  referenced : ∀ t callback, s.callbacks t = some callback → callback.refers = true → s.context ≠ none
  after : ∀ t callback, s.callbacks t = some callback → callback.afterWrite = true → s.writeReturned = true

section
variable {s s' : Stream} {t t' : ℕ}

theorem callbacks_goto {callback callback' : Callback}
    (h : (s.goto t callback).callbacks t' = some callback') :
    s.callbacks t' = some callback' ∨ callback' = callback := by
  by_cases ht : t' = t
  · subst ht
    exact .inr (by simpa [goto, eq_comm] using h)
  · exact .inl (by simpa [goto, ht] using h)

theorem callbacks_returnWrite {callback' : Callback} (h : (s.returnWrite t).callbacks t' = some callback') :
    s.callbacks t' = some callback' := by
  by_cases ht : t' = t
  · subst ht
    simp [returnWrite] at h
  · simpa [returnWrite, ht] using h

theorem callbacks_returnCleanup {callback' : Callback} (afterWrite : Bool)
    (h : (s.returnCleanup t afterWrite).callbacks t' = some callback') :
    s.callbacks t' = some callback' := by
  by_cases ht : t' = t
  · subst ht
    simp [returnCleanup] at h
  · simpa [returnCleanup, ht] using h

theorem Coherent.keep (h : s.Coherent) (hcontext : s.context ≠ none → s'.context ≠ none)
    (hwritten : s.writeReturned = true → s'.writeReturned = true)
    (hcallbacks : ∀ t callback, s'.callbacks t = some callback → s.callbacks t = some callback) :
    s'.Coherent where
  referenced t callback hat href := hcontext (h.referenced t callback (hcallbacks t callback hat) href)
  after t callback hat hafter := hwritten (h.after t callback (hcallbacks t callback hat) hafter)

theorem Coherent.move (h : s.Coherent) (callback : Callback)
    (hcontext : s.context ≠ none → s'.context ≠ none) (hwritten : s'.writeReturned = s.writeReturned)
    (hcallbacks : s'.callbacks = (s.goto t callback).callbacks)
    (href : callback.refers = true → s'.context ≠ none)
    (hafter : callback.afterWrite = true → s.writeReturned = true) : s'.Coherent := by
  constructor
  · intro t' callback' hat href'
    rw [hcallbacks] at hat
    rcases callbacks_goto hat with hold | rfl
    · exact hcontext (h.referenced t' callback' hold href')
    · exact href href'
  · intro t' callback' hat hafter'
    rw [hcallbacks] at hat
    rw [hwritten]
    rcases callbacks_goto hat with hold | rfl
    · exact h.after t' callback' hold hafter'
    · exact hafter hafter'

theorem Coherent.returnWrite (h : s.Coherent) (hcontext : s.context ≠ none → s'.context ≠ none)
    (hcallbacks : s'.callbacks = (s.returnWrite t).callbacks) (hwritten : s'.writeReturned = true) :
    s'.Coherent :=
  h.keep hcontext (fun _ => hwritten) fun t' callback hat => by
    rw [hcallbacks] at hat
    exact callbacks_returnWrite hat

theorem Coherent.returnCleanup (h : s.Coherent) (hcontext : s.context ≠ none → s'.context ≠ none)
    (afterWrite : Bool) (hcallbacks : s'.callbacks = (s.returnCleanup t afterWrite).callbacks)
    (hwritten : s'.writeReturned = s.writeReturned) : s'.Coherent :=
  h.keep hcontext (fun hw => hwritten.trans hw) fun t' callback hat => by
    rw [hcallbacks] at hat
    exact callbacks_returnCleanup afterWrite hat

end

theorem Coherent.step (upcase : UInt16 → UInt16) {s : Stream} (h : s.Coherent) (op : Op) :
    (s.step upcase op).Coherent := by
  cases op with
  | setFileWatch watch => exact ⟨h.referenced, h.after⟩
  | setDropPolicy dropWatch => exact ⟨h.referenced, h.after⟩
  | postWrite t env =>
    rw [Stream.step]
    obtain heq | ⟨-, recordAllocFailures, heq | ⟨losses, -, heq⟩⟩ := s.postWrite_cases upcase t env
    · rwa [heq]
    · rw [heq]
      exact h.move (t := t) _ id rfl rfl (by simp [Callback.refers]) (by simp [Callback.afterWrite])
    · rw [heq]
      exact h.returnWrite (t := t) id rfl rfl
  | setContext t ok =>
    rw [Stream.step]
    obtain heq | ⟨-, ⟨losses, -, heq⟩ | ⟨-, heq⟩ | ⟨-, heq⟩⟩ := s.setContext_cases t ok
    · rwa [heq]
    · rw [heq]
      exact h.returnWrite (t := t) id rfl rfl
    · rw [heq]
      exact h.returnWrite (t := t) id rfl rfl
    · rw [heq]
      exact h.move (t := t) .linking (by simp) rfl rfl (by simp)
        (by simp [Callback.afterWrite])
  | createHardLink t result =>
    rw [Stream.step]
    obtain heq | ⟨hat, heq | ⟨dropsLinkFailed, recordAllocFailures, heq⟩⟩ :=
      s.createHardLink_cases t result
    · rwa [heq]
    · rw [heq]
      exact h.move (t := t) _ id rfl rfl (fun _ => h.referenced t _ hat rfl)
        (by simp [Callback.afterWrite])
    · rw [heq]
      exact h.returnWrite (t := t) id rfl rfl
  | exchangeLinked t =>
    rw [Stream.step, exchangeLinked]
    split
    · exact h.move (t := t) .emittingLink (by simp) rfl rfl (by simp)
        (by simp [Callback.afterWrite])
    · exact h
  | emit t allocated accepted =>
    rw [Stream.step]
    obtain heq | ⟨-, heq⟩ | ⟨afterWrite, -, heq⟩ := s.emit_cases t allocated accepted
    · rwa [heq]
    · rw [heq]
      obtain ⟨losses, -, hemit⟩ | hemit := s.emitDropCaptured_cases .hardlink allocated accepted
      · rw [hemit]
        exact h.returnWrite (t := t) id rfl rfl
      · rw [hemit]
        exact h.returnWrite (t := t) id rfl rfl
    · rw [heq]
      obtain ⟨losses, -, hemit⟩ | hemit := s.emitDropCaptured_cases .copy allocated accepted
      · rw [hemit]
        exact h.returnCleanup (t := t) id afterWrite rfl rfl
      · rw [hemit]
        exact h.returnCleanup (t := t) id afterWrite rfl rfl
  | postCleanup t queryOk recordAllocated =>
    rw [Stream.step]
    obtain heq | ⟨-, ⟨losses, -, heq⟩ | ⟨recordAllocFailures, heq⟩⟩ :=
      s.postCleanup_cases upcase t queryOk recordAllocated
    · rwa [heq]
    · rw [heq]
      exact h.returnCleanup (t := t) id s.writeReturned rfl rfl
    · rw [heq]
      exact h.move (t := t) (.cleaning s.writeReturned) id rfl rfl
        (by simp [Callback.refers]) id
  | getContext t =>
    rw [Stream.step]
    obtain heq | ⟨afterWrite, hat, ⟨-, heq⟩ | ⟨hsome, heq⟩⟩ := s.getContext_cases t
    · rwa [heq]
    · rw [heq]
      exact h.returnCleanup (t := t) id afterWrite rfl rfl
    · rw [heq]
      exact h.move (t := t) _ id rfl rfl (fun _ => hsome) (h.after t (.cleaning afterWrite) hat)
  | claimCopy t passive =>
    rw [Stream.step]
    obtain heq | ⟨afterWrite, hat, ⟨-, heq⟩ | ⟨-, ⟨losses, -, heq⟩ | heq⟩⟩ := s.claimCopy_cases t passive
    · rwa [heq]
    · rw [heq]
      exact h.returnCleanup (t := t) (by simp [Stream.returnCleanup]) afterWrite rfl rfl
    · rw [heq]
      exact h.returnCleanup (t := t) (by simp [Stream.returnCleanup]) afterWrite rfl rfl
    · rw [heq]
      exact h.move (t := t) _ (by simp [goto]) rfl rfl (by simp [goto])
        (h.after t (.claiming afterWrite) hat)
  | copyFile t ok =>
    rw [Stream.step]
    obtain heq | ⟨afterWrite, hat, heq | ⟨losses, -, heq⟩⟩ := s.copyFile_cases t ok
    · rwa [heq]
    · rw [heq]
      exact h.move (t := t) _ id rfl rfl (fun _ => h.referenced t _ hat rfl)
        (h.after t (.copying afterWrite) hat)
    · rw [heq]
      exact h.returnCleanup (t := t) id afterWrite rfl rfl
  | markStreamCopied allocated =>
    rw [Stream.step]
    obtain heq | ⟨-, heq⟩ := s.markStreamCopied_cases allocated
    · rwa [heq]
    · rw [heq]
      exact ⟨fun _ _ _ _ => by simp, h.after⟩

/-! ## Captured or counted -/

def Settled (s : Stream) : Prop := s.emitted ≠ [] ∨ 0 < s.losses.total

/-- A write that has returned left a context or a count; a cleanup begun later has taken the capture;
and a taken capture has an owner until it is settled. -/
structure Tracked (s : Stream) : Prop where
  written : s.writeReturned = true → s.Settled ∨ s.context ≠ none
  cleaned : s.cleanedUp = true → s.Settled ∨ ¬ s.Unclaimed
  claimed : ¬ s.Unclaimed → s.Settled ∨ ∃ t, s.Owner t

section
variable {s s' : Stream} {t t' : ℕ}

theorem settled_of_loss {losses : Losses} (hloss : s.losses.total < losses.total)
    (heq : s'.losses = losses) : s'.Settled :=
  .inr (by rw [heq]; omega)

theorem Tracked.of_settled (h : s.Settled) : s.Tracked := ⟨fun _ => .inl h, fun _ => .inl h, fun _ => .inl h⟩

theorem emitDropCaptured_settled (method : DropMethod) (allocated accepted : Bool) :
    (s.emitDropCaptured method allocated accepted).Settled := by
  obtain ⟨losses, hloss, heq⟩ | heq := s.emitDropCaptured_cases method allocated accepted
  · rw [heq]
    exact settled_of_loss hloss rfl
  · rw [heq]
    exact .inl (by simp)

theorem Owner.goto (h : s.Owner t') (ht : ¬ s.Owner t) (callback : Callback) :
    (s.goto t callback).Owner t' := by
  have hne : t' ≠ t := fun heq => ht (heq ▸ h)
  simpa [Owner, Stream.goto, hne] using h

theorem Owner.returnWrite (h : s.Owner t') (ht : ¬ s.Owner t) : (s.returnWrite t).Owner t' := by
  have hne : t' ≠ t := fun heq => ht (heq ▸ h)
  simpa [Owner, Stream.returnWrite, hne] using h

theorem Owner.returnCleanup (h : s.Owner t') (ht : ¬ s.Owner t) (afterWrite : Bool) :
    (s.returnCleanup t afterWrite).Owner t' := by
  have hne : t' ≠ t := fun heq => ht (heq ▸ h)
  simpa [Owner, Stream.returnCleanup, hne] using h

theorem not_owner {callback : Option Callback} (h : s.callbacks t = callback)
    (howns : callback.any Callback.owns = false) : ¬ s.Owner t := by
  rw [Owner, h, howns]
  decide

/-- A step that moves a callback which owns nothing, or another one, and settles nothing. -/
theorem Tracked.keep (h : s.Tracked) (hemitted : s'.emitted = s.emitted) (hlosses : s'.losses = s.losses)
    (hcontext : s'.context = s.context)
    (hwritten : s'.writeReturned = true → s.writeReturned = true ∨ s.context ≠ none)
    (hcleaned : s'.cleanedUp = true → s.cleanedUp = true ∨ s.Settled)
    (howner : ∀ t, s.Owner t → ∃ t', s'.Owner t') : s'.Tracked := by
  have hsettled : s.Settled → s'.Settled := by
    rw [Settled, Settled, hemitted, hlosses]
    exact id
  have hunclaimed : s'.Unclaimed ↔ s.Unclaimed := by rw [Unclaimed, Unclaimed, hcontext]
  refine ⟨fun hw => ?_, fun hc => ?_, fun hclaimed => ?_⟩
  · rw [hcontext]
    rcases hwritten hw with hold | hsome
    · exact (h.written hold).imp_left hsettled
    · exact .inr hsome
  · rw [hunclaimed]
    rcases hcleaned hc with hold | hs
    · exact (h.cleaned hold).imp_left hsettled
    · exact .inl (hsettled hs)
  · rw [hunclaimed] at hclaimed
    rcases h.claimed hclaimed with hs | ⟨t, ht⟩
    · exact .inl (hsettled hs)
    · exact .inr (howner t ht)

end

def Op.isOwnCopy : Op → Bool
  | .markStreamCopied _ => true
  | _ => false

/-- File watch is on, the drop policy covers the stream, and it is no copy of the driver's own. -/
def Armed (upcase : UInt16 → UInt16) (s : Stream) (op : Op) : Prop :=
  (s.watch.enabled && s.dropWatch.covers upcase s.path && !op.isOwnCopy) = true

instance (upcase : UInt16 → UInt16) (s : Stream) (op : Op) : Decidable (s.Armed upcase op) :=
  instDecidableEqBool _ true

theorem Tracked.step (upcase : UInt16 → UInt16) {s : Stream} (hs : s.Coherent) (h : s.Tracked) (op : Op)
    (hop : s.Armed upcase op) : (s.step upcase op).Tracked := by
  cases op with
  | setFileWatch watch => exact ⟨h.written, h.cleaned, h.claimed⟩
  | setDropPolicy dropWatch => exact ⟨h.written, h.cleaned, h.claimed⟩
  | postWrite t env =>
    rw [Stream.step]
    obtain heq | ⟨hfree, recordAllocFailures, heq | ⟨losses, hloss, heq⟩⟩ := s.postWrite_cases upcase t env
    · rwa [heq]
    · rw [heq]
      exact h.keep rfl rfl rfl .inl .inl fun t' ht' =>
        ⟨t', Owner.goto (s := { s with recordAllocFailures }) ht' (not_owner hfree rfl) _⟩
    · rw [heq]
      simp only [Armed, Bool.and_eq_true] at hop
      exact .of_settled (settled_of_loss (hloss hop.1.2) rfl)
  | setContext t ok =>
    rw [Stream.step]
    obtain heq | ⟨hat, ⟨losses, hloss, heq⟩ | ⟨hsome, heq⟩ | ⟨hnone, heq⟩⟩ := s.setContext_cases t ok
    · rwa [heq]
    · rw [heq]
      exact .of_settled (settled_of_loss hloss rfl)
    · rw [heq]
      exact h.keep rfl rfl rfl (fun _ => .inr hsome) .inl fun t' ht' =>
        ⟨t', Owner.returnWrite ht' (not_owner hat rfl)⟩
    · rw [heq]
      refine ⟨fun _ => .inr (by simp), fun hc => ?_, fun hclaimed => absurd (.inr rfl) hclaimed⟩
      rcases h.cleaned hc with hsettled | hclaimed
      · exact .inl hsettled
      · exact absurd (.inl hnone) hclaimed
  | createHardLink t result =>
    rw [Stream.step]
    obtain heq | ⟨hat, heq | ⟨dropsLinkFailed, recordAllocFailures, heq⟩⟩ :=
      s.createHardLink_cases t result
    · rwa [heq]
    · rw [heq]
      exact h.keep rfl rfl rfl .inl .inl fun t' ht' => ⟨t', ht'.goto (not_owner hat rfl) _⟩
    · rw [heq]
      exact h.keep rfl rfl rfl (fun _ => .inr (hs.referenced t _ hat rfl)) .inl fun t' ht' =>
        ⟨t', ht'.returnWrite (not_owner hat rfl)⟩
  | exchangeLinked t =>
    rw [Stream.step, exchangeLinked]
    split
    · refine ⟨fun _ => .inr (by simp), fun _ => .inr (not_unclaimed rfl (by decide)), fun _ => .inr ⟨t, ?_⟩⟩
      simp [Owner, goto, Callback.owns]
    · exact h
  | emit t allocated accepted =>
    rw [Stream.step]
    obtain heq | ⟨-, heq⟩ | ⟨afterWrite, -, heq⟩ := s.emit_cases t allocated accepted
    · rwa [heq]
    · rw [heq]
      exact .of_settled (emitDropCaptured_settled .hardlink allocated accepted)
    · rw [heq]
      exact .of_settled (emitDropCaptured_settled .copy allocated accepted)
  | postCleanup t queryOk recordAllocated =>
    rw [Stream.step]
    obtain heq | ⟨hfree, ⟨losses, hloss, heq⟩ | ⟨recordAllocFailures, heq⟩⟩ :=
      s.postCleanup_cases upcase t queryOk recordAllocated
    · rwa [heq]
    · rw [heq]
      exact .of_settled (settled_of_loss hloss rfl)
    · rw [heq]
      exact h.keep rfl rfl rfl .inl .inl fun t' ht' =>
        ⟨t', Owner.goto (s := { s with recordAllocFailures }) ht' (not_owner hfree rfl) _⟩
  | getContext t =>
    rw [Stream.step]
    obtain heq | ⟨afterWrite, hat, ⟨hnone, heq⟩ | ⟨-, heq⟩⟩ := s.getContext_cases t
    · rwa [heq]
    · rw [heq]
      refine h.keep rfl rfl rfl .inl (fun hc => ?_) fun t' ht' =>
        ⟨t', ht'.returnCleanup (not_owner hat rfl) afterWrite⟩
      -- a cleanup that began after a write finds no context only if that write was counted
      rcases Bool.or_eq_true_iff.mp hc with hold | hafter
      · exact .inl hold
      · rcases h.written (hs.after t _ hat hafter) with hsettled | hsome
        · exact .inr hsettled
        · exact absurd hnone hsome
    · rw [heq]
      exact h.keep rfl rfl rfl .inl .inl fun t' ht' => ⟨t', ht'.goto (not_owner hat rfl) _⟩
  | claimCopy t passive =>
    rw [Stream.step]
    obtain heq | ⟨afterWrite, hat, ⟨hstate, heq⟩ | ⟨-, ⟨losses, hloss, heq⟩ | heq⟩⟩ :=
      s.claimCopy_cases t passive
    · rwa [heq]
    · have hclaimed : ¬ s.Unclaimed := by
        rintro (hnone | hpending)
        · exact hs.referenced t _ hat rfl hnone
        · exact hstate hpending
      rw [heq]
      refine ⟨fun _ => .inr (by simp [returnCleanup]),
        fun _ => .inr (not_unclaimed rfl (by decide)), fun _ => ?_⟩
      rcases h.claimed hclaimed with hsettled | ⟨t', ht'⟩
      · exact .inl hsettled
      · exact .inr ⟨t', ht'.returnCleanup (not_owner hat rfl) afterWrite⟩
    · rw [heq]
      exact .of_settled (settled_of_loss hloss rfl)
    · rw [heq]
      refine ⟨fun _ => .inr (by simp [goto]), fun _ => .inr (not_unclaimed rfl (by decide)),
        fun _ => .inr ⟨t, ?_⟩⟩
      simp [Owner, goto, Callback.owns]
  | copyFile t ok =>
    rw [Stream.step]
    obtain heq | ⟨afterWrite, hat, heq | ⟨losses, hloss, heq⟩⟩ := s.copyFile_cases t ok
    · rwa [heq]
    · rw [heq]
      refine h.keep rfl rfl rfl .inl .inl fun t' _ => ⟨t, ?_⟩
      simp [Owner, goto, Callback.owns]
    · rw [heq]
      exact .of_settled (settled_of_loss hloss rfl)
  | markStreamCopied allocated => exact absurd hop (by simp [Armed, Op.isOwnCopy])

/-! ## Runs -/

theorem fresh_tracked (path : List UInt16) (watch dropWatch : FileWatch) :
    (fresh path watch dropWatch).Coherent ∧ (fresh path watch dropWatch).Tracked :=
  ⟨⟨fun _ _ hat => absurd hat (by simp [fresh]), fun _ _ hat => absurd hat (by simp [fresh])⟩,
    fun hw => absurd hw (by simp [fresh]), fun hc => absurd hc (by simp [fresh]),
    fun hclaimed => absurd (.inl rfl) hclaimed⟩

/-- Once all callbacks have returned and a cleanup among them began after a write had returned, the
drop has been emitted or a loss has been counted for it. -/
theorem run_loses_nothing_silently (upcase : UInt16 → UInt16) (path : List UInt16)
    (watch dropWatch : FileWatch) (ops : List Op)
    (h : Along (step upcase) (Armed upcase) (fresh path watch dropWatch) ops)
    (hreturned : ∀ t, (run (step upcase) (fresh path watch dropWatch) ops).callbacks t = none)
    (hcleaned : (run (step upcase) (fresh path watch dropWatch) ops).cleanedUp = true) :
    (run (step upcase) (fresh path watch dropWatch) ops).emitted ≠ [] ∨
      0 < (run (step upcase) (fresh path watch dropWatch) ops).losses.total := by
  have hinvariant := h.invariant (I := fun s => s.Coherent ∧ s.Tracked)
    (fun _ op hs hop => ⟨hs.1.step upcase op, hs.2.step upcase hs.1 op hop⟩)
    (fresh_tracked path watch dropWatch)
  obtain ⟨-, htracked⟩ := hinvariant
  rcases htracked.cleaned hcleaned with hsettled | hclaimed
  · exact hsettled
  · rcases htracked.claimed hclaimed with hsettled | ⟨t, howner⟩
    · exact hsettled
    · exact absurd howner (not_owner (hreturned t) rfl)

/-- A failed link and a cleanup that cannot copy: the loss is counted. -/
theorem failedLinkFailedCopy_counted :
    (run (step id) (fresh (wide "\\a.exe") everything everything)
        [.postWrite 0 plainWrite, .setContext 0 true, .createHardLink 0 .failed, .postCleanup 0 true true,
          .getContext 0, .claimCopy 0 true, .copyFile 0 false]).emitted ≠ [] ∨
      0 < (run (step id) (fresh (wide "\\a.exe") everything everything)
        [.postWrite 0 plainWrite, .setContext 0 true, .createHardLink 0 .failed, .postCleanup 0 true true,
          .getContext 0, .claimCopy 0 true, .copyFile 0 false]).losses.total := by
  refine run_loses_nothing_silently id _ _ _ _ (by decide) (fun t => ?_) (by decide)
  simp [run, step, postWrite, tryCaptureDrop, countRecord, setContext, createHardLink, postCleanup,
    getContext, claimCopy, copyFile, goto, returnWrite, returnCleanup, lose, fresh, isNoise, plainWrite,
    everything, FileWatch.covers]

end Stream

end SecOutfall.Drops
