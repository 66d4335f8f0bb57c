import SecOutfall.Sensor.DrainInvariant

/-! The drain invariant over whole runs, with the producers' steps and the counters. -/
namespace SecOutfall.Sensor
open Segments Runs
set_option autoImplicit false

section
variable {s t : Rings} {drains rest : List Drain} {d : Drain}

/-! ## Producers -/

theorem Drain.PhaseOk.mono (h : d.PhaseOk s) (hwritten : ∀ va, s.written va ≤ t.written va)
    (hcommitted : s.committed ⊆ t.committed) : d.PhaseOk t := by
  cases hphase : d.phase with
  | slots writeIndex drained drainedNow =>
    rw [Drain.PhaseOk, hphase] at h ⊢
    intro ref href
    exact ⟨(h ref href).1, le_trans (h ref href).2 (hwritten ref.va)⟩
  | payload writeIndex drained drainedNow slot word p =>
    rw [Drain.PhaseOk, hphase] at h ⊢
    intro ref href
    obtain ⟨hlt, hle, hindex, hmem⟩ := h ref href
    exact ⟨hlt, le_trans hle (hwritten ref.va), hindex, hcommitted hmem⟩
  | _ => rwa [Drain.PhaseOk, hphase] at h ⊢

/-- A producer rewrites its ring without lowering `WriteIndex`. -/
theorem Aligned.setMemory (h : Aligned s drains) (va : ℕ) (mem : Memory) (producers : List Producer)
    (committed : List (ℕ × UInt64)) (hcommitted : s.committed ⊆ committed)
    (hhonest : HonestRing mem fun c => (va, c) ∈ committed)
    (hwritten : s.written va ≤ (mem.word64 SensorRingControl.writeIndex).toNat)
    (hproducers : ∀ p ∈ producers, p.slot = slotAt (p.claimed.toNat % 4096)) :
    Aligned { s.setMemory va mem with producers, committed } drains := by
  have hgrows : ∀ va', s.written va' ≤
      Rings.written { s.setMemory va mem with producers, committed } va' := by
    intro va'
    simp only [Rings.written, Rings.setMemory]
    by_cases heq : va' = va
    · subst heq
      rw [Function.update_self]
      exact hwritten
    · rw [Function.update_of_ne heq]
  refine ⟨?_, hproducers, h.distinct, h.consecutive, ?_, ?_, h.behind, h.idle, h.held, h.cursors, ?_⟩
  · intro va'
    simp only [Rings.setMemory]
    by_cases heq : va' = va
    · subst heq
      rw [Function.update_self]
      exact hhonest
    · rw [Function.update_of_ne heq]
      exact (h.honest va').mono fun c hc => hcommitted hc
  · intro va'
    exact le_trans (h.ahead va') (hgrows va')
  · intro ref p hmem
    exact hcommitted (h.promoted ref p hmem)
  · intro x hx
    exact (h.phases x hx).mono hgrows hcommitted

/-- What a claim does to a ring of the driver's geometry whose `WriteIndex` does not wrap. -/
structure Claims (s : Rings) (va : ℕ) (call : Call) (claimed : UInt64) (committed : UInt64 → Prop) : Prop where
  index : (s.memory va).word64 RingControl.writeIndex = claimed
  next : claimed.toNat = s.written va
  honest : HonestRing ((s.memory va).write64 RingControl.writeIndex (claimed + 1)) committed
  written : (((s.memory va).write64 RingControl.writeIndex (claimed + 1)).word64
    SensorRingControl.writeIndex).toNat = s.written va + 1
  claim : s.claim va call =
    { s.setMemory va ((s.memory va).write64 RingControl.writeIndex (claimed + 1)) with
      producers := s.producers ++ [⟨va, call, claimed, slotAt (claimed.toNat % 4096), .load⟩] }

theorem HonestRing.claims {va : ℕ} {committed : UInt64 → Prop} (h : HonestRing (s.memory va) committed)
    {call : Call} (hmono : Monotonic s (.emit va call)) : ∃ claimed, Claims s va call claimed committed := by
  have hindex := h.monotonic
  have hstate : ¬ (s.memory va).word32 RingControl.state ≠ 1 := not_not.mpr h.state
  set claimed := (s.memory va).word64 RingControl.writeIndex with hclaimed
  have hclaimed' : (s.memory va).word64 SensorRingControl.writeIndex = claimed := rfl
  have hsucc : (claimed + 1).toNat = claimed.toNat + 1 ∧ claimed.toNat + 1 < 2 ^ 63 := by
    rw [hclaimed'] at hindex
    simp only [Monotonic, hclaimed'] at hmono
    have hne : claimed ≠ 0x7FFFFFFFFFFFFFFF := by
      intro heq
      rw [heq] at hmono
      exact absurd hmono (by decide)
    have hnat : claimed.toNat ≠ 2 ^ 63 - 1 := fun h0 => hne (UInt64.toNat_inj.mp h0)
    rw [UInt64.toNat_add, UInt64.toNat_one]
    omega
  have hword : ((s.memory va).write64 RingControl.writeIndex (claimed + 1)).word64
      SensorRingControl.writeIndex = claimed + 1 := (s.memory va).word64_write64 _ _
  have hhonest : HonestRing ((s.memory va).write64 RingControl.writeIndex (claimed + 1)) committed := by
    apply h.write_control (claimed + 1) (by simp) (by simp)
    rw [hword, hsucc.1]
    exact hsucc.2
  have hcount : ¬ ((s.memory va).write64 RingControl.writeIndex (claimed + 1)).word32
      RingControl.slotCount = 0 := by
    have heq : ((s.memory va).write64 RingControl.writeIndex (claimed + 1)).word32
        RingControl.slotCount = 4096 := hhonest.slotCount
    rw [heq]
    decide
  refine ⟨claimed, ⟨hclaimed.symm, rfl, hhonest, ?_, ?_⟩⟩
  · rw [hword, hsucc.1, Rings.written, hclaimed']
  · unfold Rings.claim
    simp only [if_neg hstate, ← hclaimed, if_neg hcount]
    rw [hhonest.emitSlot_eq (Nat.lt_of_succ_lt hsucc.2)]
    rfl

theorem Aligned.claim (h : Aligned s drains) {va : ℕ} {call : Call} (hmono : Monotonic s (.emit va call)) :
    Aligned (s.claim va call) drains := by
  obtain ⟨claimed, hclaims⟩ := (h.honest va).claims hmono
  rw [hclaims.claim]
  apply h.setMemory va _ _ s.committed (List.Subset.refl _) hclaims.honest
  · rw [hclaims.written]
    exact Nat.le_succ _
  · intro p hp
    rcases List.mem_append.mp hp with hold | hnew
    · exact h.producers p hold
    · rw [List.mem_singleton.mp hnew]

/-- A producer accounts, writes one word, or commits. -/
inductive Produces (s : Rings) (j : ℕ) (p : Producer) : Rings → Prop where
  | silent (phase : EmitPhase) (mem : Memory)
    (hsilent : phase = .payload 0 ∨ ∃ previous, phase = .account previous)
    (hmem : mem = s.memory p.va ∨ ∃ v, mem = (s.memory p.va).write64 RingControl.dropped v)
    (hphase : ∀ word, p.phase ≠ .payload word) :
    Produces s j p { s.setMemory p.va mem with producers := s.producers.set j { p with phase } }
  | write (word : ℕ) (hphase : p.phase = .payload word) :
    Produces s j p { s.setMemory p.va (Rings.writeWord (s.memory p.va) p.slot p.call word) with
      producers := s.producers.set j { p with phase := if word < 5 then .payload (word + 1) else .commit } }
  | commit (hphase : p.phase = .commit) :
    Produces s j p { s.setMemory p.va ((s.memory p.va).write64 p.slot (p.claimed + 1)) with
      producers := s.producers.eraseIdx j
      committed := s.committed ++ [(p.va, p.claimed)] }

theorem produce_produces {j : ℕ} {p : Producer} (hget : s.producers[j]? = some p) :
    Produces s j p (s.produce j) := by
  unfold Rings.produce
  simp only [hget]
  cases hphase : p.phase with
  | load =>
    have hsame : Produces s j p _ := .silent (.account ((s.memory p.va).word64 p.slot)) (s.memory p.va)
      (.inr ⟨_, rfl⟩) (.inl rfl) (by simp [hphase])
    rwa [Rings.setMemory, Function.update_eq_self] at hsame
  | account previous =>
    refine .silent (.payload 0) _ (.inl rfl) ?_ (by simp [hphase])
    split
    · exact .inr ⟨_, rfl⟩
    · exact .inl rfl
  | payload word => exact .write word hphase
  | commit => exact .commit hphase

theorem Produces.eq_write {j word : ℕ} {p : Producer} (h : Produces s j p t) (hphase : p.phase = .payload word) :
    t = { s.setMemory p.va (Rings.writeWord (s.memory p.va) p.slot p.call word) with
      producers := s.producers.set j { p with phase := if word < 5 then .payload (word + 1) else .commit } } := by
  cases h with
  | silent _ _ _ _ hsilent => exact absurd hphase (hsilent word)
  | write word' hphase' =>
    obtain rfl : word = word' := by simpa [hphase] using hphase'
    rfl
  | commit hcommit =>
    rw [hphase] at hcommit
    cases hcommit

/-- A producer rewrites its own ring, keeps its index there, and leaves `WriteIndex` as it is. -/
theorem Produces.rewrites {j : ℕ} {p : Producer} (h : Produces s j p t)
    (hring : HonestRing (s.memory p.va) fun c => (p.va, c) ∈ s.committed)
    (hslot : p.slot = slotAt (p.claimed.toNat % 4096)) :
    ∃ mem producers committed, t = { s.setMemory p.va mem with producers, committed } ∧
      (HonestRing mem fun c => (p.va, c) ∈ committed) ∧
      mem.word64 SensorRingControl.writeIndex = (s.memory p.va).word64 SensorRingControl.writeIndex ∧
      s.committed ⊆ committed ∧
      ∀ q ∈ producers, q ∈ s.producers ∨ q.slot = p.slot ∧ q.claimed = p.claimed := by
  have hnext (phase : EmitPhase) (q : Producer) (hq : q ∈ s.producers.set j { p with phase }) :
      q ∈ s.producers ∨ q.slot = p.slot ∧ q.claimed = p.claimed := by
    rcases List.mem_or_eq_of_mem_set hq with hold | rfl
    · exact .inl hold
    · exact .inr ⟨rfl, rfl⟩
  cases h with
  | silent phase mem _ hmem =>
    obtain rfl | ⟨v, rfl⟩ := hmem
    · exact ⟨_, _, _, rfl, hring, rfl, List.Subset.refl _, hnext _⟩
    · have hword : ((s.memory p.va).write64 RingControl.dropped v).word64 SensorRingControl.writeIndex =
          (s.memory p.va).word64 SensorRingControl.writeIndex := Memory.word64_write64_of_ne _ _ (by simp)
      have hhonest : HonestRing ((s.memory p.va).write64 RingControl.dropped v) fun c => (p.va, c) ∈ s.committed :=
        hring.write_control v (by simp) (by simp) (hword ▸ hring.monotonic)
      exact ⟨_, _, _, rfl, hhonest, hword, List.Subset.refl _, hnext _⟩
  | write word _ =>
    obtain ⟨hhonest, hword⟩ := hring.write_word (p.claimed.toNat % 4096) p.call word
    rw [← hslot] at hhonest hword
    exact ⟨_, _, _, rfl, hhonest, hword, List.Subset.refl _, hnext _⟩
  | commit _ =>
    have hgrown : HonestRing (s.memory p.va) fun c => (p.va, c) ∈ s.committed ++ [(p.va, p.claimed)] :=
      hring.mono fun c hc => List.mem_append_left _ hc
    obtain ⟨hhonest, hword⟩ := hgrown.commit p.claimed (List.mem_append_right _ List.mem_cons_self)
    rw [← hslot] at hhonest hword
    exact ⟨_, _, _, rfl, hhonest, hword, List.subset_append_left _ _,
      fun q hq => .inl (List.mem_of_mem_eraseIdx hq)⟩

theorem produce_of_none {j : ℕ} (h : s.producers[j]? = none) : s.produce j = s := by
  rw [Rings.produce, h]

theorem Aligned.produce (h : Aligned s drains) (j : ℕ) : Aligned (s.produce j) drains := by
  cases hget : s.producers[j]? with
  | none =>
    rw [produce_of_none hget]
    exact h
  | some p =>
    have hslot := h.producers p (List.mem_of_getElem? hget)
    obtain ⟨mem, producers, committed, heq, hhonest, hword, hsub, hproducers⟩ :=
      (produce_produces hget).rewrites (h.honest p.va) hslot
    rw [heq]
    apply h.setMemory p.va _ _ _ hsub hhonest
    · rw [hword]
      exact le_rfl
    · intro q hq
      obtain hold | ⟨hsame, hclaimed⟩ := hproducers q hq
      · exact h.producers q hold
      · rw [hsame, hclaimed]
        exact hslot

/-! ## Whole runs -/

/-- Producers do not touch what the drains keep. -/
structure Untouched (s t : Rings) : Prop where
  drains : t.drains = s.drains
  ledger : t.ledger = s.ledger
  consumed : t.consumed = s.consumed
  drained : t.sensorEventsDrained = s.sensorEventsDrained
  dropped : t.sensorEventsDropped = s.sensorEventsDropped

theorem produce_untouched (s : Rings) (j : ℕ) : Untouched s (s.produce j) := by
  unfold Rings.produce
  split
  · exact ⟨rfl, rfl, rfl, rfl, rfl⟩
  · simp only
    split <;> exact ⟨rfl, rfl, rfl, rfl, rfl⟩

theorem claim_untouched (s : Rings) (va : ℕ) (call : Call) : Untouched s (s.claim va call) := by
  unfold Rings.claim
  simp only
  split
  · exact ⟨rfl, rfl, rfl, rfl, rfl⟩
  · split <;> exact ⟨rfl, rfl, rfl, rfl, rfl⟩

theorem Aligned.step {op : RingStep} (h : Aligned s s.drains) (hfree : NoOverlap s op)
    (hmono : Monotonic s op) : Aligned (s.step op) (s.step op).drains := by
  cases op with
  | emit va call =>
    rw [show (s.step (.emit va call)).drains = s.drains from (claim_untouched s va call).drains]
    exact h.claim hmono
  | produce j =>
    rw [show (s.step (.produce j)).drains = s.drains from (produce_untouched s j).drains]
    exact h.produce j
  | drain =>
    have hsnapshot := (h.snapshot hfree).perm (List.perm_append_singleton _ s.drains).symm
    exact hsnapshot.congr rfl rfl rfl rfl rfl
  | advance k => exact h.advance k

end

end SecOutfall.Sensor
