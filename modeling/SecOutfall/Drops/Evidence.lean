import SecOutfall.Drops.Capture
import SecOutfall.Foundations.Runs

/-! How often a stream's content becomes evidence, and that it does not vanish.

A callback owns the capture from the exchange that takes it to its emission. The exchange of a
cleanup takes a pending capture only; the exchange of the writer takes whatever it finds. -/
namespace SecOutfall.Drops
open Control Runs
set_option autoImplicit false

/-! ## Owners of the capture -/

def Callback.owns : Callback → Bool
  | .emittingLink | .copying _ | .emittingCopy _ => true
  | _ => false

namespace Stream

def Owner (s : Stream) (t : ℕ) : Prop := (s.callbacks t).any Callback.owns = true

/-- No exchange has taken the capture. -/
def Unclaimed (s : Stream) : Prop := s.context = none ∨ s.context = some .copyPending

section
variable {s : Stream} {t t' : ℕ}

theorem owner_of {callback : Callback} (h : s.callbacks t = some callback) (howns : callback.owns = true) :
    s.Owner t := by
  rw [Owner, h]
  exact howns

theorem owner_goto {callback : Callback} (h : (s.goto t callback).Owner t') :
    t' ≠ t ∧ s.Owner t' ∨ t' = t ∧ callback.owns = true := by
  by_cases ht : t' = t
  · subst ht
    exact .inr ⟨rfl, by simpa [Owner, goto] using h⟩
  · exact .inl ⟨ht, by simpa [Owner, goto, ht] using h⟩

/-- A callback that moves on without owning the capture makes no owner. -/
theorem owner_of_goto {callback : Callback} (hcallback : callback.owns = false)
    (h : (s.goto t callback).Owner t') : s.Owner t' := by
  obtain ⟨-, howner⟩ | ⟨-, howns⟩ := owner_goto h
  · exact howner
  · exact absurd (hcallback.symm.trans howns) (by decide)

theorem owner_returnWrite (h : (s.returnWrite t).Owner t') : t' ≠ t ∧ s.Owner t' := by
  by_cases ht : t' = t
  · subst ht
    simp [Owner, returnWrite] at h
  · exact ⟨ht, by simpa [Owner, returnWrite, ht] using h⟩

theorem owner_returnCleanup (afterWrite : Bool) (h : (s.returnCleanup t afterWrite).Owner t') :
    t' ≠ t ∧ s.Owner t' := by
  by_cases ht : t' = t
  · subst ht
    simp [Owner, returnCleanup] at h
  · exact ⟨ht, by simpa [Owner, returnCleanup, ht] using h⟩

end

/-! ## One record -/

/-- At most one callback owns the capture, and none once it is emitted or while it is unclaimed. -/
structure OnceOnly (s : Stream) : Prop where
  unclaimed : s.Unclaimed → s.emitted = [] ∧ ∀ t, ¬ s.Owner t
  single : ∀ t t', s.Owner t → s.Owner t' → t = t'
  spent : s.emitted ≠ [] → ∀ t, ¬ s.Owner t
  atMost : s.emitted.length ≤ 1

section
variable {s s' : Stream} {t : ℕ}

theorem OnceOnly.shrink (h : s.OnceOnly) (hemitted : s'.emitted = s.emitted)
    (howner : ∀ t, s'.Owner t → s.Owner t) (hcontext : s'.Unclaimed → s.Unclaimed) : s'.OnceOnly where
  unclaimed hopen := ⟨hemitted.trans (h.unclaimed (hcontext hopen)).1,
    fun t ht => (h.unclaimed (hcontext hopen)).2 t (howner t ht)⟩
  single t t' ht ht' := h.single t t' (howner t ht) (howner t' ht')
  spent hne t ht := h.spent (hemitted ▸ hne) t (howner t ht)
  atMost := hemitted ▸ h.atMost

/-- The exchange that takes an unclaimed capture makes its callback the only owner. -/
theorem OnceOnly.take (h : s.OnceOnly) (hopen : s.Unclaimed) (hclaimed : ¬ s'.Unclaimed)
    (hemitted : s'.emitted = s.emitted) (howner : ∀ t', s'.Owner t' → s.Owner t' ∨ t' = t) :
    s'.OnceOnly := by
  obtain ⟨hnone, hfree⟩ := h.unclaimed hopen
  have hself : ∀ t', s'.Owner t' → t' = t := by
    intro t' ht'
    rcases howner t' ht' with hold | hself
    · exact absurd hold (hfree t')
    · exact hself
  exact ⟨fun hopen' => absurd hopen' hclaimed, fun t₁ t₂ h₁ h₂ => (hself t₁ h₁).trans (hself t₂ h₂).symm,
    fun hne => absurd (hemitted.trans hnone) hne, by rw [hemitted, hnone]; exact Nat.zero_le 1⟩

/-- The owner emits, or loses the capture, and is done. -/
theorem OnceOnly.deliver (h : s.OnceOnly) (howner : s.Owner t) (hcontext : s'.context = s.context)
    (method : DropMethod) (hemitted : s'.emitted = s.emitted ∨ s'.emitted = s.emitted ++ [method])
    (hleft : ∀ t', s'.Owner t' → t' ≠ t ∧ s.Owner t') : s'.OnceOnly := by
  have hfree : ∀ t', ¬ s'.Owner t' := by
    intro t' ht'
    obtain ⟨hne, hold⟩ := hleft t' ht'
    exact hne (h.single t' t hold howner)
  have hnone : s.emitted = [] := by
    by_contra hne
    exact h.spent hne t howner
  have hclaimed : ¬ s'.Unclaimed := by
    intro hopen
    rw [Unclaimed, hcontext] at hopen
    exact (h.unclaimed hopen).2 t howner
  refine ⟨fun hopen => absurd hopen hclaimed, fun t₁ t₂ h₁ => absurd h₁ (hfree t₁), fun _ => hfree, ?_⟩
  rcases hemitted with hsame | hmore
  · rw [hsame, hnone]
    exact Nat.zero_le 1
  · rw [hmore, hnone]
    exact Nat.le_refl 1

end

/-- The writer's exchange finds the capture still pending. -/
def LinkUnclaimed (s : Stream) : Op → Prop
  | .exchangeLinked t => s.callbacks t = some .linkMade → s.context = some .copyPending
  | _ => True

instance (s : Stream) (op : Op) : Decidable (s.LinkUnclaimed op) := by
  cases op <;> unfold LinkUnclaimed <;> infer_instance

theorem OnceOnly.emit {s : Stream} (h : s.OnceOnly) (t : ℕ) (allocated accepted : Bool) :
    (s.emit t allocated accepted).OnceOnly := by
  have hcases := s.emit_cases t allocated accepted
  obtain heq | ⟨hat, heq⟩ | ⟨afterWrite, hat, heq⟩ := hcases
  · rwa [heq]
  · have howner : s.Owner t := owner_of hat rfl
    rw [heq]
    obtain ⟨losses, -, hemit⟩ | hemit := s.emitDropCaptured_cases .hardlink allocated accepted
    · rw [hemit]
      exact h.deliver howner rfl .hardlink (.inl rfl) fun t' ht' => owner_returnWrite ht'
    · rw [hemit]
      exact h.deliver howner rfl .hardlink (.inr rfl) fun t' ht' => owner_returnWrite ht'
  · have howner : s.Owner t := owner_of hat rfl
    rw [heq]
    obtain ⟨losses, -, hemit⟩ | hemit := s.emitDropCaptured_cases .copy allocated accepted
    · rw [hemit]
      exact h.deliver howner rfl .copy (.inl rfl) fun t' ht' => owner_returnCleanup afterWrite ht'
    · rw [hemit]
      exact h.deliver howner rfl .copy (.inr rfl) fun t' ht' => owner_returnCleanup afterWrite ht'

theorem not_unclaimed {s : Stream} {state : DropState} (h : s.context = some state)
    (hstate : state ≠ .copyPending) : ¬ s.Unclaimed := by
  rw [Unclaimed, h]
  rintro (hnone | hpending)
  · cases hnone
  · exact hstate (Option.some.inj hpending)

theorem OnceOnly.step (upcase : UInt16 → UInt16) {s : Stream} (h : s.OnceOnly) (op : Op)
    (hop : s.LinkUnclaimed op) : (s.step upcase op).OnceOnly := by
  cases op with
  | setFileWatch watch => exact h.shrink rfl (fun _ ht => ht) id
  | setDropPolicy dropWatch => exact h.shrink rfl (fun _ ht => ht) id
  | postWrite t env =>
    rw [Stream.step]
    obtain heq | ⟨-, recordAllocFailures, heq | ⟨losses, -, heq⟩⟩ := s.postWrite_cases upcase t env
    · rwa [heq]
    · rw [heq]
      exact h.shrink rfl (fun _ ht => owner_of_goto rfl ht) id
    · rw [heq]
      exact h.shrink rfl (fun _ ht => (owner_returnWrite ht).2) id
  | setContext t ok =>
    rw [Stream.step]
    obtain heq | ⟨-, ⟨losses, -, heq⟩ | ⟨-, heq⟩ | ⟨hnone, heq⟩⟩ := s.setContext_cases t ok
    · rwa [heq]
    · rw [heq]
      exact h.shrink rfl (fun _ ht => (owner_returnWrite ht).2) id
    · rw [heq]
      exact h.shrink rfl (fun _ ht => (owner_returnWrite ht).2) id
    · rw [heq]
      exact h.shrink rfl (fun _ ht => owner_of_goto rfl ht) fun _ => .inl hnone
  | createHardLink t result =>
    rw [Stream.step]
    obtain heq | ⟨-, heq | ⟨dropsLinkFailed, recordAllocFailures, heq⟩⟩ :=
      s.createHardLink_cases t result
    · rwa [heq]
    · rw [heq]
      exact h.shrink rfl (fun _ ht => owner_of_goto rfl ht) id
    · rw [heq]
      exact h.shrink rfl (fun _ ht => (owner_returnWrite ht).2) id
  | exchangeLinked t =>
    rw [Stream.step, exchangeLinked]
    split
    · rename_i hat
      refine h.take (t := t) (.inr (hop hat)) (not_unclaimed rfl (by decide)) rfl fun t' ht' => ?_
      obtain ⟨-, howner⟩ | ⟨hself, -⟩ := owner_goto ht'
      · exact .inl howner
      · exact .inr hself
    · exact h
  | emit t allocated accepted => exact h.emit t allocated accepted
  | postCleanup t queryOk recordAllocated =>
    rw [Stream.step]
    obtain heq | ⟨-, ⟨losses, -, heq⟩ | ⟨recordAllocFailures, heq⟩⟩ :=
      s.postCleanup_cases upcase t queryOk recordAllocated
    · rwa [heq]
    · rw [heq]
      exact h.shrink rfl (fun _ ht => (owner_returnCleanup s.writeReturned ht).2) id
    · rw [heq]
      exact h.shrink rfl (fun _ ht => owner_of_goto rfl ht) id
  | getContext t =>
    rw [Stream.step]
    obtain heq | ⟨afterWrite, -, ⟨-, heq⟩ | ⟨-, heq⟩⟩ := s.getContext_cases t
    · rwa [heq]
    · rw [heq]
      exact h.shrink rfl (fun _ ht => (owner_returnCleanup afterWrite ht).2) id
    · rw [heq]
      exact h.shrink rfl (fun _ ht => owner_of_goto rfl ht) id
  | claimCopy t passive =>
    rw [Stream.step]
    obtain heq | ⟨afterWrite, -, ⟨-, heq⟩ | ⟨hpending, ⟨losses, -, heq⟩ | heq⟩⟩ := s.claimCopy_cases t passive
    · rwa [heq]
    · rw [heq]
      exact h.shrink rfl (fun _ ht => (owner_returnCleanup afterWrite ht).2) fun hopen =>
        absurd hopen (not_unclaimed rfl (by decide))
    · rw [heq]
      exact h.shrink rfl (fun _ ht => (owner_returnCleanup afterWrite ht).2) fun hopen =>
        absurd hopen (not_unclaimed rfl (by decide))
    · rw [heq]
      refine h.take (t := t) (.inr hpending) (not_unclaimed rfl (by decide)) rfl fun t' ht' => ?_
      obtain ⟨-, howner⟩ | ⟨hself, -⟩ := owner_goto ht'
      · exact .inl howner
      · exact .inr hself
  | copyFile t ok =>
    rw [Stream.step]
    obtain heq | ⟨afterWrite, hat, heq | ⟨losses, -, heq⟩⟩ := s.copyFile_cases t ok
    · rwa [heq]
    · rw [heq]
      refine h.shrink rfl (fun t' ht' => ?_) id
      obtain ⟨-, howner⟩ | ⟨rfl, -⟩ := owner_goto ht'
      · exact howner
      · exact owner_of hat rfl
    · rw [heq]
      exact h.shrink rfl (fun _ ht => (owner_returnCleanup afterWrite ht).2) id
  | markStreamCopied allocated =>
    rw [Stream.step]
    obtain heq | ⟨hnone, heq⟩ := s.markStreamCopied_cases allocated
    · rwa [heq]
    · rw [heq]
      exact h.shrink rfl (fun _ ht => ht) fun hopen => absurd hopen (not_unclaimed rfl (by decide))

theorem fresh_onceOnly (path : List UInt16) (watch dropWatch : FileWatch) :
    (fresh path watch dropWatch).OnceOnly :=
  ⟨fun _ => ⟨rfl, fun _ h => absurd h (by simp [Owner, fresh])⟩,
    fun _ _ h => absurd h (by simp [Owner, fresh]), fun h => absurd rfl h, Nat.zero_le 1⟩

/-- Along every interleaving in which the writer's exchange finds the capture pending, the stream
becomes evidence at most once. -/
theorem run_captures_once (upcase : UInt16 → UInt16) (path : List UInt16) (watch dropWatch : FileWatch)
    (ops : List Op) (h : Along (step upcase) LinkUnclaimed (fresh path watch dropWatch) ops) :
    (run (step upcase) (fresh path watch dropWatch) ops).emitted.length ≤ 1 :=
  (h.invariant (fun _ op hs hop => hs.step upcase op hop) (fresh_onceOnly path watch dropWatch)).atMost

def everything : FileWatch := ⟨true, []⟩

def plainWrite : WriteEnv := ⟨10, 0, true, true, true, true⟩

/-- Two handles: the link is made, then the other handle's cleanup finds it done. -/
theorem linkThenCleanup_once :
    (run (step id) (fresh (wide "\\a.exe") everything everything)
      [.postWrite 0 plainWrite, .setContext 0 true, .createHardLink 0 .linked, .exchangeLinked 0,
        .postCleanup 1 true true, .getContext 1, .claimCopy 1 true, .emit 0 true true]).emitted.length ≤ 1 :=
  run_captures_once id _ _ _ _ (by decide)

/-- A cleanup copies while the writer is still linking, and the link then succeeds as well. -/
theorem cleanupWhileLinking_twice :
    ¬ (run (step id) (fresh (wide "\\a.exe") everything everything)
      [.postWrite 0 plainWrite, .setContext 0 true, .postCleanup 1 true true, .getContext 1,
        .claimCopy 1 true, .copyFile 1 true, .emit 1 true true, .createHardLink 0 .linked,
        .exchangeLinked 0, .emit 0 true true]).emitted.length ≤ 1 := by
  decide

end Stream

end SecOutfall.Drops
