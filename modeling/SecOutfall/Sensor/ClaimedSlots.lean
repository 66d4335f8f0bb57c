import SecOutfall.Sensor.DrainRuns

/-! Claimed slots: every index claimed once, and the steps of a drain told apart by what they read of a slot. -/
namespace SecOutfall.Sensor
set_option autoImplicit false

/-! ## What a drain's step does -/

def DrainPhase.isPayload : DrainPhase → Bool
  | .payload .. => true
  | _ => false

/-- A drain checks a slot and finds it committed, reads a word of its payload, or does neither. -/
inductive Advances (s : Rings) (k : ℕ) (d : Drain) : Rings → Prop where
  | check (ref : RingRef) (more : List RingRef) (writeIndex drained : UInt64) (drainedNow : ℕ)
    (hrings : d.rings = ref :: more) (hphase : d.phase = .slots writeIndex drained drainedNow)
    (hloop : drainedNow < 256 ∧ asI64 drained < asI64 writeIndex)
    (hseq : (s.memory ref.va).word64 (drainSlot (s.memory ref.va) drained) = drained + 1) :
    Advances s k d (s.enter k d (.payload writeIndex drained drainedNow (drainSlot (s.memory ref.va) drained) 0
      ⟨drained, 0, 0, 0, 0, 0, 0⟩))
  | read (ref : RingRef) (more : List RingRef) (writeIndex drained : UInt64) (drainedNow slot word : ℕ)
    (p : Promotion) (hrings : d.rings = ref :: more)
    (hphase : d.phase = .payload writeIndex drained drainedNow slot word p) :
    Advances s k d (s.readPayload k d ref writeIndex drained drainedNow slot word p)
  | other {t : Rings} (hmemory : t.memory = s.memory) (hproducers : t.producers = s.producers)
    (hcommitted : t.committed = s.committed)
    (hconsumed : ∀ ref p, .promoted ref p ∈ t.consumed → .promoted ref p ∈ s.consumed)
    (hdrains : ∀ x ∈ t.drains, x ∈ s.drains ∨ x.phase.isPayload = false) : Advances s k d t

section
variable {s : Rings} {k : ℕ} {d : Drain}

theorem mem_set_phase {d' x : Drain} (hquiet : d'.phase.isPayload = false) (hx : x ∈ s.drains.set k d') :
    x ∈ s.drains ∨ x.phase.isPayload = false := by
  rcases List.mem_or_eq_of_mem_set hx with hold | rfl
  · exact .inl hold
  · exact .inr hquiet

theorem Advances.enter {phase : DrainPhase} (hquiet : phase.isPayload = false) : Advances s k d (s.enter k d phase) :=
  .other rfl rfl rfl (fun _ _ => id) fun _ => mem_set_phase hquiet

theorem Advances.leave : Advances s k d { s with drains := s.drains.eraseIdx k } :=
  .other rfl rfl rfl (fun _ _ => id) fun _ hx => .inl (List.mem_of_mem_eraseIdx hx)

theorem Advances.same : Advances s k d s := .other rfl rfl rfl (fun _ _ => id) fun _ => .inl

theorem atEnd_advances : Advances s k d (s.atEnd k d) := by
  cases hphase : d.phase with
  | ring =>
    rw [Rings.atEnd, hphase]
    exact .enter rfl
  | readDrained =>
    rw [Rings.atEnd, hphase]
    simp only
    split <;> exact .enter rfl
  | exchangeDrained total =>
    rw [Rings.atEnd, hphase]
    exact .other rfl rfl rfl (fun _ _ => id) fun _ => mem_set_phase rfl
  | readDropped =>
    rw [Rings.atEnd, hphase]
    simp only
    split
    · exact .enter rfl
    · exact .leave
  | exchangeDropped total =>
    rw [Rings.atEnd, hphase]
    exact .other rfl rfl rfl (fun _ _ => id) fun _ hx => .inl (List.mem_of_mem_eraseIdx hx)
  | _ =>
    rw [Rings.atEnd, hphase]
    exact .same

theorem beginRing_advances (ref : RingRef) (more : List RingRef) (hphase : d.phase = .ring) :
    Advances s k d (s.beginRing k d ref more) := by
  unfold Rings.beginRing
  dsimp only
  split
  · exact .other rfl rfl rfl (fun _ _ => id) fun _ => mem_set_phase (by rw [hphase]; rfl)
  · refine .other rfl rfl rfl (fun r p hp => ?_) fun _ => mem_set_phase rfl
    obtain hold | hnew := List.mem_append.mp hp
    · exact hold
    · split at hnew
      · exact absurd hnew List.not_mem_nil
      · cases List.mem_singleton.mp hnew

theorem checkSlot_advances {ref : RingRef} {more : List RingRef} {writeIndex drained : UInt64} {drainedNow : ℕ}
    (hrings : d.rings = ref :: more) (hphase : d.phase = .slots writeIndex drained drainedNow) :
    Advances s k d (s.checkSlot k d ref writeIndex drained drainedNow) := by
  unfold Rings.checkSlot
  dsimp only
  split
  case isTrue hloop =>
    split
    · exact .enter rfl
    · split
      · exact .enter rfl
      case isFalse hseq => exact .check ref more writeIndex drained drainedNow hrings hphase hloop (not_not.mp hseq)
  case isFalse => exact .enter rfl

theorem advance_advances (hget : s.drains[k]? = some d) : Advances s k d (s.advance k) := by
  rw [Rings.advance_of_get hget, Rings.advanceAt]
  cases hrings : d.rings with
  | nil => exact atEnd_advances
  | cons ref more =>
    dsimp only
    unfold Rings.atRing
    cases hphase : d.phase with
    | ring => exact beginRing_advances ref more hphase
    | slots writeIndex drained drainedNow => exact checkSlot_advances hrings hphase
    | payload writeIndex drained drainedNow slot word p => exact .read ref more _ _ _ _ _ _ hrings hphase
    | writeBack drained => exact .other rfl rfl rfl (fun _ _ => id) fun _ => mem_set_phase rfl
    | _ => exact .same

end

theorem Advances.frame {s r : Rings} {k : ℕ} {d : Drain} (h : Advances s k d r) :
    r.memory = s.memory ∧ r.producers = s.producers ∧ r.committed = s.committed := by
  cases h with
  | check => exact ⟨rfl, rfl, rfl⟩
  | read =>
    unfold Rings.readPayload
    dsimp only
    split <;> exact ⟨rfl, rfl, rfl⟩
  | other hmemory hproducers hcommitted _ _ => exact ⟨hmemory, hproducers, hcommitted⟩

/-! ## Rings of honest producers -/

/-- Every index that was claimed, in flight or committed. -/
def Rings.emits (s : Rings) : List (ℕ × UInt64) := s.producers.map (fun p => (p.va, p.claimed)) ++ s.committed

/-- How many words of the payload are written. -/
def EmitPhase.done : EmitPhase → ℕ
  | .payload word => word
  | .commit => 6
  | _ => 0

structure Sound (s : Rings) : Prop where
  honest : ∀ va, HonestRing (s.memory va) fun c => (va, c) ∈ s.committed
  slots : ∀ p ∈ s.producers, p.slot = slotAt (p.claimed.toNat % 4096)
  words : ∀ p ∈ s.producers, ∀ word, p.phase = .payload word → word < 6
  once : s.emits.Nodup
  below : ∀ key ∈ s.emits, key.2.toNat < s.written key.1

theorem init_sound (setup : Setup) : Sound (Rings.init setup) where
  honest _ := activatedRing_honest _
  slots _ hp := absurd hp List.not_mem_nil
  words _ hp := absurd hp List.not_mem_nil
  once := List.nodup_nil
  below _ hkey := absurd hkey List.not_mem_nil

theorem Sound.congr {s t : Rings} (h : Sound s) (hmemory : t.memory = s.memory)
    (hproducers : t.producers = s.producers) (hcommitted : t.committed = s.committed) : Sound t := by
  cases s
  cases t
  simp only at hmemory hproducers hcommitted
  subst hmemory hproducers hcommitted
  exact ⟨h.honest, h.slots, h.words, h.once, h.below⟩

theorem Sound.done_le {s : Rings} (h : Sound s) {p : Producer} (hp : p ∈ s.producers) : p.phase.done ≤ 6 := by
  cases hphase : p.phase with
  | payload word => exact Nat.le_of_lt (h.words p hp word hphase)
  | commit => exact Nat.le_refl 6
  | load | account => exact Nat.zero_le 6

section
variable {s t : Rings} {j : ℕ} {p : Producer}

/-- An index in flight stays claimed, and a commit moves it to the committed ones. -/
theorem Produces.emits_perm (hget : s.producers[j]? = some p) (h : Produces s j p t) : t.emits.Perm s.emits := by
  obtain ⟨hj, rfl⟩ := List.getElem?_eq_some_iff.mp hget
  have hset (phase : EmitPhase) : (s.producers.set j { s.producers[j] with phase }).map (fun p => (p.va, p.claimed)) =
      s.producers.map fun p => (p.va, p.claimed) := by
    have hself := @List.set_getElem_self _ (s.producers.map fun p => (p.va, p.claimed)) j (by simpa using hj)
    rw [List.map_set]
    simpa only [List.getElem_map] using hself
  cases h with
  | silent phase _ _ _ _ => exact .of_eq (congrArg (· ++ s.committed) (hset phase))
  | write word _ => exact .of_eq (congrArg (· ++ s.committed) (hset _))
  | commit _ =>
    have htaken := ((List.getElem_cons_eraseIdx_perm hj).map fun p => (p.va, p.claimed)).append_right s.committed
    refine .trans ?_ htaken
    rw [Rings.emits, ← List.append_assoc]
    exact List.perm_append_singleton _ _

theorem Sound.produce (h : Sound s) (hget : s.producers[j]? = some p) (hproduces : Produces s j p t) :
    Sound t ∧ ∀ va, t.written va = s.written va := by
  have hmem := List.mem_of_getElem? hget
  have hslot := h.slots p hmem
  have hperm := hproduces.emits_perm hget
  have hwords : ∀ q ∈ t.producers, ∀ word, q.phase = .payload word → word < 6 := by
    have hset {phase : EmitPhase} (hphase : ∀ word, phase = .payload word → word < 6) :
        ∀ q ∈ s.producers.set j { p with phase }, ∀ word, q.phase = .payload word → word < 6 := by
      intro q hq
      rcases List.mem_or_eq_of_mem_set hq with hold | rfl
      · exact h.words q hold
      · exact hphase
    cases hproduces with
    | silent phase _ hsilent _ _ =>
      apply hset
      obtain rfl | ⟨_, rfl⟩ := hsilent
      · rintro _ ⟨⟩
        decide
      · exact nofun
    | write word _ =>
      apply hset
      intro word' hword'
      split at hword'
      · cases hword'
        omega
      · cases hword'
    | commit _ => exact fun q hq => h.words q (List.mem_of_mem_eraseIdx hq)
  obtain ⟨mem, producers, committed, rfl, hhonest, hword, hsub, hproducers⟩ :=
    hproduces.rewrites (h.honest p.va) hslot
  have hwritten (va : ℕ) : Rings.written { s.setMemory p.va mem with producers, committed } va = s.written va := by
    simp only [Rings.written, Rings.setMemory]
    by_cases heq : va = p.va
    · rw [heq, Function.update_self, hword]
    · rw [Function.update_of_ne heq]
  refine ⟨?_, hwritten⟩
  constructor
  case honest =>
    intro va
    by_cases heq : va = p.va
    · rw [heq]
      simpa only [Rings.setMemory, Function.update_self] using hhonest
    · simp only [Rings.setMemory, Function.update_of_ne heq]
      exact (h.honest va).mono fun c hc => hsub hc
  case slots =>
    intro q hq
    obtain hold | ⟨hsame, hclaimed⟩ := hproducers q hq
    · exact h.slots q hold
    · rw [hsame, hclaimed, hslot]
  case words => exact hwords
  case once => exact hperm.nodup_iff.mpr h.once
  case below =>
    intro key hkey
    rw [hwritten]
    exact h.below key (hperm.mem_iff.mp hkey)

theorem Sound.claim {va : ℕ} {call : Call} {claimed : UInt64} (h : Sound s)
    (hclaims : Claims s va call claimed fun c => (va, c) ∈ s.committed) :
    Sound (s.claim va call) ∧ ∀ va', (s.claim va call).written va' = s.written va' + if va' = va then 1 else 0 := by
  have hwritten (va' : ℕ) : (s.claim va call).written va' = s.written va' + if va' = va then 1 else 0 := by
    rw [hclaims.claim]
    simp only [Rings.written, Rings.setMemory]
    by_cases heq : va' = va
    · rw [heq, Function.update_self, hclaims.written, if_pos rfl, Rings.written]
    · rw [Function.update_of_ne heq, if_neg heq, Nat.add_zero]
  have hemits : (s.claim va call).emits.Perm ((va, claimed) :: s.emits) := by
    rw [hclaims.claim, Rings.emits, Rings.emits, List.map_append, List.append_assoc]
    exact List.perm_middle
  refine ⟨?_, hwritten⟩
  constructor
  case honest =>
    intro va'
    rw [hclaims.claim]
    by_cases heq : va' = va
    · rw [heq]
      simpa only [Rings.setMemory, Function.update_self] using hclaims.honest
    · simpa only [Rings.setMemory, Function.update_of_ne heq] using h.honest va'
  case slots =>
    rw [hclaims.claim]
    intro q hq
    obtain hold | hnew := List.mem_append.mp hq
    · exact h.slots q hold
    · rw [List.mem_singleton.mp hnew]
  case words =>
    rw [hclaims.claim]
    intro q hq
    obtain hold | hnew := List.mem_append.mp hq
    · exact h.words q hold
    · rw [List.mem_singleton.mp hnew]
      exact fun _ h => by cases h
  case once =>
    refine hemits.nodup_iff.mpr (List.nodup_cons.mpr ⟨fun hmem => ?_, h.once⟩)
    have hlt := h.below _ hmem
    rw [← hclaims.next] at hlt
    exact absurd hlt (lt_irrefl _)
  case below =>
    intro key hkey
    rw [hwritten]
    obtain rfl | hold := List.mem_cons.mp (hemits.mem_iff.mp hkey)
    · rw [if_pos rfl, hclaims.next]
      exact Nat.lt_succ_self _
    · exact Nat.lt_add_right _ (h.below key hold)

end

end SecOutfall.Sensor
