import SecOutfall.Drops.Evidence

/-! Whether a fallback copy holds what the stream ends up with.

A cleanup comes once for each handle, and the first one takes the pending capture; other handles may
go on writing. -/
namespace SecOutfall.Drops
open Control Runs
set_option autoImplicit false

/-! ## Model -/

/-- A stream with its open handles and how often it was written. A callback inside `CopyFileToDrops` is in
`reads` from its first read on, with the number of writes by then; so is each COPY record in `copies`. -/
structure Content where
  stream : Stream
  handles : List ℕ
  writes : ℕ
  reads : List (ℕ × ℕ)
  copies : List ℕ

namespace Content

inductive Op where
  | opened (handle : ℕ)
  | write (handle : ℕ) (ok : Bool)
  | cleanup (handle t : ℕ) (queryOk recordAllocated : Bool)
  | readChunk (t : ℕ)
  | driver (op : Stream.Op)

def fresh (path : List UInt16) (watch dropWatch : FileWatch) : Content :=
  ⟨.fresh path watch dropWatch, [], 0, [], []⟩

/-- `FltReadFile`; the first one counts. -/
def readChunk (s : Content) (t : ℕ) : Content :=
  match s.stream.callbacks t with
  | some (.copying _) => if (s.reads.lookup t).isSome then s else { s with reads := (t, s.writes) :: s.reads }
  | _ => s

def forget (s : Content) (t : ℕ) : Content := { s with reads := s.reads.filter fun read => read.1 != t }

/-- The copy ends with a read at the end of the file, or fails. -/
def copyFile (s : Content) (t : ℕ) (ok : Bool) : Content := if ok then s.readChunk t else s.forget t

def emit (s : Content) (t : ℕ) (allocated accepted : Bool) : Content :=
  match s.stream.callbacks t with
  | some (.emittingCopy _) =>
    let s := if allocated && accepted then { s with copies := s.copies ++ [(s.reads.lookup t).getD s.writes] } else s
    s.forget t
  | _ => s

def step (upcase : UInt16 → UInt16) (s : Content) : Op → Content
  | .opened handle => { s with handles := handle :: s.handles }
  | .write handle ok => if ok && s.handles.contains handle then { s with writes := s.writes + 1 } else s
  | .cleanup handle t queryOk recordAllocated =>
    if s.handles.contains handle then
      { s with handles := s.handles.erase handle, stream := s.stream.postCleanup upcase t queryOk recordAllocated }
    else s
  | .readChunk t => s.readChunk t
  -- a cleanup comes with its handle
  | .driver (.postCleanup _ _ _) => s
  | .driver (.copyFile t ok) => { s.copyFile t ok with stream := s.stream.step upcase (.copyFile t ok) }
  | .driver (.emit t allocated accepted) =>
    { s.emit t allocated accepted with stream := s.stream.step upcase (.emit t allocated accepted) }
  | .driver op => { s with stream := s.stream.step upcase op }

/-! ## Final content -/

/-- For every COPY record, no write has succeeded since the first read of its copy. -/
structure Final (s : Content) : Prop where
  recorded : s.copies.length = s.stream.emitted.count .copy
  current : ∀ writes ∈ s.copies, writes = s.writes

/-- A write succeeds only while nothing has been read for a copy. -/
def writesUncopied (s : Content) : Op → Bool
  | .write handle ok => !(ok && s.handles.contains handle) || s.reads.isEmpty && s.copies.isEmpty
  | _ => true

/-- As `Final`, and for the copies under way. -/
structure Current (s : Content) : Prop where
  reads : ∀ read ∈ s.reads, read.2 = s.writes
  copies : ∀ writes ∈ s.copies, writes = s.writes

section
variable {s : Content} {t : ℕ}

theorem Current.readChunk (h : s.Current) (t : ℕ) : (s.readChunk t).Current := by
  unfold Content.readChunk
  split
  · split
    · exact h
    · exact ⟨List.forall_mem_cons.mpr ⟨rfl, h.reads⟩, h.copies⟩
  · exact h

theorem Current.forget (h : s.Current) (t : ℕ) : (s.forget t).Current :=
  ⟨fun read hread => h.reads read (List.mem_filter.mp hread).1, h.copies⟩

theorem Current.copyFile (h : s.Current) (t : ℕ) (ok : Bool) : (s.copyFile t ok).Current := by
  cases ok with
  | true => exact h.readChunk t
  | false => exact h.forget t

theorem Current.lookup (h : s.Current) (t : ℕ) : (s.reads.lookup t).getD s.writes = s.writes := by
  cases hread : s.reads.lookup t with
  | none => rfl
  | some writes =>
    obtain ⟨before, after, hsplit, -⟩ := List.lookup_eq_some_iff.mp hread
    exact h.reads (t, writes) (by rw [hsplit]; simp)

theorem Current.emit (h : s.Current) (t : ℕ) (allocated accepted : Bool) : (s.emit t allocated accepted).Current := by
  unfold Content.emit
  split
  · refine Current.forget ?_ t
    split
    · refine ⟨h.reads, fun writes hwrites => ?_⟩
      obtain hold | hnew := List.mem_append.mp hwrites
      · exact h.copies writes hold
      · rw [List.mem_singleton.mp hnew, h.lookup]
    · exact h
  · exact h

theorem Current.stream (h : s.Current) (stream : Stream) : { s with stream }.Current := ⟨h.reads, h.copies⟩

/-- One more write keeps what is current only if there is nothing yet. -/
theorem Current.write_iff (h : s.Current) :
    { s with writes := s.writes + 1 }.Current ↔ s.reads = [] ∧ s.copies = [] := by
  constructor
  · intro hnext
    refine ⟨List.eq_nil_iff_forall_not_mem.mpr fun read hread => ?_,
      List.eq_nil_iff_forall_not_mem.mpr fun writes hwrites => ?_⟩
    · exact absurd ((h.reads read hread).symm.trans (hnext.reads read hread)) (Nat.ne_of_lt (Nat.lt_succ_self _))
    · exact absurd ((h.copies writes hwrites).symm.trans (hnext.copies writes hwrites))
        (Nat.ne_of_lt (Nat.lt_succ_self _))
  · rintro ⟨hreads, hcopies⟩
    constructor
    · intro read hread
      rw [hreads] at hread
      cases hread
    · intro writes hwrites
      rw [hcopies] at hwrites
      cases hwrites

theorem Current.step_iff (upcase : UInt16 → UInt16) (h : s.Current) (op : Op) :
    (s.step upcase op).Current ↔ s.writesUncopied op = true := by
  have hkept : ∀ {s' : Content}, s'.Current → (s'.Current ↔ true = true) := fun hs' => iff_of_true hs' rfl
  cases op with
  | opened handle => exact hkept ⟨h.reads, h.copies⟩
  | write handle ok =>
    rw [Content.step, writesUncopied]
    by_cases hwritten : (ok && s.handles.contains handle) = true
    · rw [if_pos hwritten, hwritten, h.write_iff]
      simp
    · rw [if_neg hwritten, Bool.eq_false_iff.mpr hwritten]
      exact hkept h
  | cleanup handle t queryOk recordAllocated =>
    rw [Content.step]
    split
    · exact hkept ⟨h.reads, h.copies⟩
    · exact hkept h
  | readChunk t => exact hkept (h.readChunk t)
  | driver op =>
    cases op with
    | postCleanup t queryOk recordAllocated => exact hkept h
    | copyFile t ok => exact hkept ((h.copyFile t ok).stream _)
    | emit t allocated accepted => exact hkept ((h.emit t allocated accepted).stream _)
    | _ => exact hkept (h.stream _)

end

/-! ## One record for each copy -/

section
variable (upcase : UInt16 → UInt16) (s : Stream) (t : ℕ)

theorem emitted_postWrite (env : Stream.WriteEnv) : (s.postWrite upcase t env).emitted = s.emitted := by
  obtain heq | ⟨-, _, heq | ⟨_, -, heq⟩⟩ := s.postWrite_cases upcase t env
  all_goals exact (congrArg Stream.emitted heq).trans rfl

theorem emitted_setContext (ok : Bool) : (s.setContext t ok).emitted = s.emitted := by
  obtain heq | ⟨-, ⟨_, -, heq⟩ | ⟨-, heq⟩ | ⟨-, heq⟩⟩ := s.setContext_cases t ok
  all_goals exact (congrArg Stream.emitted heq).trans rfl

theorem emitted_createHardLink (result : Stream.LinkResult) : (s.createHardLink t result).emitted = s.emitted := by
  obtain heq | ⟨-, heq | ⟨_, _, heq⟩⟩ := s.createHardLink_cases t result
  all_goals exact (congrArg Stream.emitted heq).trans rfl

theorem emitted_exchangeLinked : (s.exchangeLinked t).emitted = s.emitted := by
  unfold Stream.exchangeLinked
  split <;> rfl

theorem emitted_postCleanup (queryOk recordAllocated : Bool) :
    (s.postCleanup upcase t queryOk recordAllocated).emitted = s.emitted := by
  obtain heq | ⟨-, ⟨_, -, heq⟩ | ⟨_, heq⟩⟩ := s.postCleanup_cases upcase t queryOk recordAllocated
  all_goals exact (congrArg Stream.emitted heq).trans rfl

theorem emitted_getContext : (s.getContext t).emitted = s.emitted := by
  obtain heq | ⟨_, -, ⟨-, heq⟩ | ⟨-, heq⟩⟩ := s.getContext_cases t
  all_goals exact (congrArg Stream.emitted heq).trans rfl

theorem emitted_claimCopy (passive : Bool) : (s.claimCopy t passive).emitted = s.emitted := by
  obtain heq | ⟨_, -, ⟨-, heq⟩ | ⟨-, ⟨_, -, heq⟩ | heq⟩⟩ := s.claimCopy_cases t passive
  all_goals exact (congrArg Stream.emitted heq).trans rfl

theorem emitted_copyFile (ok : Bool) : (s.copyFile t ok).emitted = s.emitted := by
  obtain heq | ⟨_, -, heq | ⟨_, -, heq⟩⟩ := s.copyFile_cases t ok
  all_goals exact (congrArg Stream.emitted heq).trans rfl

theorem emitted_markStreamCopied (allocated : Bool) : (s.markStreamCopied allocated).emitted = s.emitted := by
  obtain heq | ⟨-, heq⟩ := s.markStreamCopied_cases allocated
  all_goals exact (congrArg Stream.emitted heq).trans rfl

theorem emitted_emitDropCaptured (method : DropMethod) (allocated accepted : Bool) :
    (s.emitDropCaptured method allocated accepted).emitted =
      if allocated && accepted then s.emitted ++ [method] else s.emitted := by
  unfold Stream.emitDropCaptured
  cases allocated <;> cases accepted <;> rfl

end

def Recorded (s : Content) : Prop := s.copies.length = s.stream.emitted.count .copy

theorem Recorded.keep {s s' : Content} (h : s.Recorded) (hcopies : s'.copies = s.copies)
    (hemitted : s'.stream.emitted = s.stream.emitted) : s'.Recorded := by
  rw [Recorded, hcopies, hemitted]
  exact h

theorem copies_readChunk (s : Content) (t : ℕ) : (s.readChunk t).copies = s.copies := by
  unfold Content.readChunk
  split
  · split <;> rfl
  · rfl

theorem stream_readChunk (s : Content) (t : ℕ) : (s.readChunk t).stream = s.stream := by
  unfold Content.readChunk
  split
  · split <;> rfl
  · rfl

theorem copies_copyFile (s : Content) (t : ℕ) (ok : Bool) : (s.copyFile t ok).copies = s.copies := by
  cases ok with
  | true => exact s.copies_readChunk t
  | false => rfl

theorem Recorded.emit {s : Content} (h : s.Recorded) (t : ℕ) (allocated accepted : Bool) :
    { s.emit t allocated accepted with stream := s.stream.emit t allocated accepted }.Recorded := by
  unfold Content.emit Stream.emit
  rw [Recorded] at h
  split
  · rename_i hat
    rw [hat]
    simp only [Recorded, forget, Stream.returnCleanup, emitted_emitDropCaptured]
    split
    · simpa using h
    · exact h
  · split
    · simp only [Recorded, Stream.returnWrite, emitted_emitDropCaptured]
      split
      · simpa using h
      · exact h
    · rename_i hcopying _ afterWrite hat
      exact absurd hat (hcopying afterWrite)
    · exact h

theorem Recorded.step (upcase : UInt16 → UInt16) {s : Content} (h : s.Recorded) (op : Op) :
    (s.step upcase op).Recorded := by
  cases op with
  | opened handle => exact h
  | write handle ok =>
    rw [Content.step]
    split <;> exact h
  | cleanup handle t queryOk recordAllocated =>
    rw [Content.step]
    split
    · exact h.keep rfl (emitted_postCleanup upcase s.stream t queryOk recordAllocated)
    · exact h
  | readChunk t => exact h.keep (s.copies_readChunk t) (congrArg Stream.emitted (s.stream_readChunk t))
  | driver op =>
    cases op with
    | setFileWatch watch => exact h
    | setDropPolicy dropWatch => exact h
    | postWrite t env => exact h.keep rfl (emitted_postWrite upcase s.stream t env)
    | setContext t ok => exact h.keep rfl (emitted_setContext s.stream t ok)
    | createHardLink t result => exact h.keep rfl (emitted_createHardLink s.stream t result)
    | exchangeLinked t => exact h.keep rfl (emitted_exchangeLinked s.stream t)
    | emit t allocated accepted => exact h.emit t allocated accepted
    | postCleanup t queryOk recordAllocated => exact h
    | getContext t => exact h.keep rfl (emitted_getContext s.stream t)
    | claimCopy t passive => exact h.keep rfl (emitted_claimCopy s.stream t passive)
    | copyFile t ok => exact h.keep (s.copies_copyFile t ok) (emitted_copyFile s.stream t ok)
    | markStreamCopied allocated => exact h.keep rfl (emitted_markStreamCopied s.stream allocated)

/-! ## Runs -/

theorem fresh_current (path : List UInt16) (watch dropWatch : FileWatch) :
    (fresh path watch dropWatch).Current :=
  ⟨fun _ hread => (List.not_mem_nil hread).elim, fun _ hwrites => (List.not_mem_nil hwrites).elim⟩

/-- What is read and copied stays current exactly if nobody writes once a copy has begun. -/
theorem along_iff_current (upcase : UInt16 → UInt16) (path : List UInt16) (watch dropWatch : FileWatch)
    (ops : List Op) :
    Along (step upcase) (fun s op => s.writesUncopied op = true) (fresh path watch dropWatch) ops ↔
      ∀ before after, ops = before ++ after →
        (run (step upcase) (fresh path watch dropWatch) before).Current :=
  along_iff_good (I := fun _ => True) (fun _ _ _ => trivial)
    (fun _ op _ hcurrent => hcurrent.step_iff upcase op) trivial (fresh_current path watch dropWatch)

/-- In every interleaving in which nobody writes once a copy has begun, every COPY record is of the final
content. -/
theorem run_copies_final (upcase : UInt16 → UInt16) (path : List UInt16) (watch dropWatch : FileWatch)
    (ops : List Op)
    (h : Along (step upcase) (fun s op => s.writesUncopied op = true) (fresh path watch dropWatch) ops)
    (before after : List Op) (hops : ops = before ++ after) :
    (run (step upcase) (fresh path watch dropWatch) before).Final := by
  have hfresh : (fresh path watch dropWatch).Recorded := rfl
  have hrecorded := run_invariant (I := Recorded) (fun _ op hs => hs.step upcase op) hfresh before
  have hcurrent := (along_iff_current upcase path watch dropWatch ops).mp h before after hops
  exact ⟨hrecorded, hcurrent.copies⟩

/-- Two handles, the link fails, and both are written before the first cleanup. -/
def linkFails : List Op :=
  [.opened 0, .opened 1, .write 0 true, .driver (.postWrite 2 Stream.plainWrite), .driver (.setContext 2 true),
    .driver (.createHardLink 2 .failed), .write 1 true, .cleanup 0 3 true true, .driver (.getContext 3),
    .driver (.claimCopy 3 true), .readChunk 3, .driver (.copyFile 3 true), .driver (.emit 3 true true)]

theorem linkFails_final :
    (run (step id) (fresh (wide "\\a.exe") Stream.everything Stream.everything) linkFails).Final :=
  run_copies_final id _ _ _ linkFails (by decide) linkFails [] (by simp)

/-- The other handle writes on after the copy. -/
theorem writeAfterCopy_stale :
    ¬ (run (step id) (fresh (wide "\\a.exe") Stream.everything Stream.everything)
      (linkFails ++ [.write 1 true])).Final :=
  fun h => absurd (h.current 2 (by decide)) (by decide)

end Content

end SecOutfall.Drops
