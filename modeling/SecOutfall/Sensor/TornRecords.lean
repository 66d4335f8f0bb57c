import SecOutfall.Sensor.ClaimedSlots
import SecOutfall.Sensor.DrainAccounting
import SecOutfall.Sensor.PayloadWords
import SecOutfall.Sensor.Uninterrupted

/-! Torn records: whether all words of a promoted call come from the `emit` that claimed its index.

The sequence word of a slot still names the committed record while the `emit` of a later lap writes
the payload, and the drain does not look at it again behind its reads. -/
namespace SecOutfall.Sensor
open Runs
set_option autoImplicit false

/-! ## Model -/

/-- The rings with their history: every claim, and for each slot the index whose `emit` began last to write its
payload. -/
structure Traced where
  rings : Rings
  claims : List (ℕ × UInt64 × Call)
  began : ℕ × ℕ → Option UInt64

def Traced.init (setup : Setup) : Traced := ⟨.init setup, [], fun _ => none⟩

def Traced.step (s : Traced) (op : RingStep) : Traced where
  rings := s.rings.step op
  claims :=
    match op with
    | .emit va call =>
      if (s.rings.memory va).word32 RingControl.state ≠ 1 then s.claims
      else s.claims ++ [(va, (s.rings.memory va).word64 RingControl.writeIndex, call)]
    | _ => s.claims
  began :=
    match op with
    | .produce j =>
      match s.rings.producers[j]? with
      | some ⟨va, _, claimed, slot, .payload 0⟩ => Function.update s.began (va, slot) (some claimed)
      | _ => s.began
    | _ => s.began

/-- The calls of the emits that claimed this index. -/
def Traced.claimants (s : Traced) (va : ℕ) (index : UInt64) : List Call :=
  (s.claims.filter fun claim => claim.1 == va && claim.2.1 == index).map fun claim => claim.2.2

/-- Every promoted call has all of its words from the one `emit` that claimed its index. -/
def Traced.Whole (s : Traced) : Prop :=
  ∀ ref p, .promoted ref p ∈ s.rings.consumed →
    ∃ call, s.claimants ref.va p.index = [call] ∧ p.WrittenBy call

/-- The drain is between the check of this slot and its read of this word. -/
def Drain.willRead (d : Drain) (va slot word : ℕ) : Bool :=
  match d.phase with
  | .payload _ _ _ slot' word' _ => d.rings.head?.any (·.va == va) && slot' == slot && decide (word' ≤ word)
  | _ => false

/-- A producer goes on in its slot only while no other began to write there behind it, and never writes a word
that a drain has yet to read; a check succeeds only on a slot that nobody began to write since. -/
def Traced.undisturbed (s : Traced) : RingStep → Bool
  | .emit va call => decide (Monotonic s.rings (.emit va call))
  | .produce j =>
    match s.rings.producers[j]? with
    | some ⟨va, _, claimed, slot, .payload word⟩ =>
      (word == 0 || s.began (va, slot) == some claimed) && s.rings.drains.all fun d => !d.willRead va slot word
    | _ => true
  | .drain => true
  | .advance k =>
    match s.rings.drains[k]? with
    | some ⟨ref :: _, .slots writeIndex drained drainedNow, _, _⟩ =>
      let slot := drainSlot (s.rings.memory ref.va) drained
      !decide (drainedNow < 256 ∧ asI64 drained < asI64 writeIndex ∧
          (s.rings.memory ref.va).word64 slot = drained + 1) ||
        s.began (ref.va, slot) == some drained
    | _ => true

theorem run_rings (s : Traced) (ops : List RingStep) :
    (run Traced.step s ops).rings = run Rings.step s.rings ops := by
  induction ops generalizing s with
  | nil => rfl
  | cons op ops ih => exact ih (s.step op)

/-! ## The invariant -/

/-- The words the drain has read and those it has yet to read are of the call that claimed its index. -/
def Traced.Reading (s : Traced) (d : Drain) : Prop :=
  ∀ writeIndex drained drainedNow slot word p, d.phase = .payload writeIndex drained drainedNow slot word p →
    word < 6 ∧ p.index = drained ∧ ∀ ref ∈ d.rings.head?, slot = slotAt (drained.toNat % 4096) ∧
      ∃ call, s.claimants ref.va drained = [call] ∧ (∀ k < word, p.word k = call.word k) ∧
        ∀ k < 6, word ≤ k → slotWord (s.rings.memory ref.va) slot k = call.word k

structure Intact (s : Traced) : Prop where
  sound : Sound s.rings
  fresh : ∀ va c, s.rings.written va ≤ c.toNat → s.claimants va c = []
  began : ∀ va slot c, s.began (va, slot) = some c → (va, c) ∈ s.rings.emits
  calls : ∀ p ∈ s.rings.producers, s.claimants p.va p.claimed = [p.call]
  writing : ∀ p ∈ s.rings.producers, s.began (p.va, p.slot) = some p.claimed →
    ∀ k < p.phase.done, slotWord (s.rings.memory p.va) p.slot k = p.call.word k
  settled : ∀ va c, (va, c) ∈ s.rings.committed → ∃ call, s.claimants va c = [call] ∧
    (s.began (va, slotAt (c.toNat % 4096)) = some c →
      ∀ k < 6, slotWord (s.rings.memory va) (slotAt (c.toNat % 4096)) k = call.word k)
  reading : ∀ d ∈ s.rings.drains, s.Reading d
  whole : s.Whole

theorem init_intact (setup : Setup) : Intact (.init setup) where
  sound := init_sound setup
  fresh _ _ _ := rfl
  began := nofun
  calls _ hp := absurd hp List.not_mem_nil
  writing _ hp := absurd hp List.not_mem_nil
  settled _ _ hc := absurd hc List.not_mem_nil
  reading _ hd := absurd hd List.not_mem_nil
  whole _ _ hp := absurd hp List.not_mem_nil

/-- No payload is written, and nothing claimed is forgotten. -/
structure Quiet (s t : Traced) : Prop where
  claimants : ∀ va c call, s.claimants va c = [call] → t.claimants va c = [call]
  words : ∀ va i, ∀ k < 6, slotWord (t.rings.memory va) (slotAt i) k = slotWord (s.rings.memory va) (slotAt i) k
  began : t.began = s.began

section
variable {s t : Traced} {d : Drain}

theorem Quiet.reading (h : Quiet s t) (hd : s.Reading d) : t.Reading d := by
  intro writeIndex drained drainedNow slot word p hphase
  obtain ⟨hword, hindex, hreads⟩ := hd _ _ _ _ _ _ hphase
  refine ⟨hword, hindex, fun ref href => ?_⟩
  obtain ⟨rfl, call, hcall, hread, hahead⟩ := hreads ref href
  exact ⟨rfl, call, h.claimants _ _ _ hcall, hread, fun k hk hle => (h.words _ _ k hk).trans (hahead k hk hle)⟩

theorem Intact.quiet (h : Intact s) (hquiet : Quiet s t) (hsound : Sound t.rings)
    (hfresh : ∀ va c, t.rings.written va ≤ c.toNat → t.claimants va c = [])
    (hemits : s.rings.emits ⊆ t.rings.emits)
    (hproducers : ∀ p ∈ t.rings.producers, p ∈ s.rings.producers ∨
      p.phase.done = 0 ∧ t.claimants p.va p.claimed = [p.call])
    (hcommitted : ∀ va c, (va, c) ∈ t.rings.committed → (va, c) ∈ s.rings.committed ∨
      ∃ p ∈ s.rings.producers, p.phase.done = 6 ∧ (va, c) = (p.va, p.claimed))
    (hdrains : ∀ d ∈ t.rings.drains, d ∈ s.rings.drains ∨ t.Reading d)
    (hconsumed : ∀ ref p, .promoted ref p ∈ t.rings.consumed → .promoted ref p ∈ s.rings.consumed ∨
      ∃ call, t.claimants ref.va p.index = [call] ∧ p.WrittenBy call) : Intact t := by
  constructor
  case sound => exact hsound
  case fresh => exact hfresh
  case began =>
    intro va slot c hbegan
    rw [hquiet.began] at hbegan
    exact hemits (h.began va slot c hbegan)
  case calls =>
    intro p hp
    obtain hold | ⟨_, hcall⟩ := hproducers p hp
    · exact hquiet.claimants _ _ _ (h.calls p hold)
    · exact hcall
  case writing =>
    intro p hp hbegan k hk
    obtain hold | ⟨hdone, _⟩ := hproducers p hp
    · rw [hquiet.began] at hbegan
      have hslot := h.sound.slots p hold
      have hword := h.writing p hold hbegan k hk
      rw [hslot] at hword ⊢
      exact (hquiet.words _ _ k (lt_of_lt_of_le hk (h.sound.done_le hold))).trans hword
    · omega
  case settled =>
    intro va c hc
    rw [hquiet.began]
    obtain hold | ⟨p, hp, hdone, heq⟩ := hcommitted va c hc
    · obtain ⟨call, hcall, hwords⟩ := h.settled va c hold
      exact ⟨call, hquiet.claimants _ _ _ hcall, fun hbegan k hk => (hquiet.words _ _ k hk).trans (hwords hbegan k hk)⟩
    · obtain ⟨rfl, rfl⟩ := Prod.mk.inj heq
      refine ⟨p.call, hquiet.claimants _ _ _ (h.calls p hp), fun hbegan k hk => ?_⟩
      rw [← h.sound.slots p hp] at hbegan
      have hword := h.writing p hp hbegan k (hdone ▸ hk)
      rw [h.sound.slots p hp] at hword
      exact (hquiet.words _ _ k hk).trans hword
  case reading =>
    intro d hd
    obtain hold | hreads := hdrains d hd
    · exact hquiet.reading (h.reading d hold)
    · exact hreads
  case whole =>
    intro ref p hp
    obtain hold | hwhole := hconsumed ref p hp
    · obtain ⟨call, hcall, hwritten⟩ := h.whole ref p hold
      exact ⟨call, hquiet.claimants _ _ _ hcall, hwritten⟩
    · exact hwhole

/-! ## Producers -/

theorem Intact.emit (h : Intact s) {va : ℕ} {call : Call} (hmono : Monotonic s.rings (.emit va call)) :
    Intact (s.step (.emit va call)) := by
  obtain ⟨claimed, hclaims⟩ := (h.sound.honest va).claims hmono
  obtain ⟨hsound, hwritten⟩ := h.sound.claim hclaims
  have hrings : (s.step (.emit va call)).rings = s.rings.claim va call := rfl
  have hclaimed : (s.step (.emit va call)).claims = s.claims ++ [(va, claimed, call)] := by
    have hstate : ¬ (s.rings.memory va).word32 RingControl.state ≠ 1 := not_not.mpr (h.sound.honest va).state
    simp only [Traced.step, if_neg hstate, hclaims.index]
  have hclaimants (va' : ℕ) (c : UInt64) : (s.step (.emit va call)).claimants va' c =
      s.claimants va' c ++ if va = va' ∧ claimed = c then [call] else [] := by
    rw [Traced.claimants, hclaimed, List.filter_append, List.map_append, Traced.claimants]
    by_cases heq : va = va' ∧ claimed = c
    · simp [heq]
    · simp [heq]
  have hnew : s.claimants va claimed = [] := h.fresh va claimed (le_of_eq hclaims.next.symm)
  have hquiet : Quiet s (s.step (.emit va call)) := by
    constructor
    case claimants =>
      intro va' c call' hcall
      rw [hclaimants, if_neg, List.append_nil, hcall]
      rintro ⟨rfl, rfl⟩
      rw [hnew] at hcall
      cases hcall
    case words =>
      intro va' i k hk
      rw [hrings, hclaims.claim]
      by_cases heq : va' = va
      · subst heq
        simp only [Rings.setMemory, Function.update_self]
        exact slotWord_write64 _ (.inl (by decide)) i hk
      · simp only [Rings.setMemory, Function.update_of_ne heq]
    case began => rfl
  refine h.quiet hquiet hsound ?_ ?_ ?_ ?_ ?_ ?_
  · intro va' c hle
    rw [hrings, hwritten] at hle
    rw [hclaimants, h.fresh va' c (by omega), if_neg, List.append_nil]
    rintro ⟨rfl, rfl⟩
    rw [if_pos rfl, ← hclaims.next] at hle
    omega
  · rw [hrings, hclaims.claim]
    simp only [Rings.emits, Rings.setMemory, List.map_append]
    exact List.append_subset.mpr ⟨fun x hx => by simp [hx], fun x hx => by simp [hx]⟩
  · rw [hrings, hclaims.claim]
    intro p hp
    obtain hold | hadded := List.mem_append.mp hp
    · exact .inl hold
    · obtain rfl := List.mem_singleton.mp hadded
      refine .inr ⟨rfl, ?_⟩
      rw [hclaimants, hnew, if_pos ⟨rfl, rfl⟩, List.nil_append]
  · rw [hrings, hclaims.claim]
    exact fun _ _ => .inl
  · rw [hrings, hclaims.claim]
    exact fun _ => .inl
  · rw [hrings, hclaims.claim]
    exact fun _ _ => .inl

section
variable {r : Rings} {j : ℕ} {p : Producer}

/-- Outside the payload writes a producer changes no payload. -/
theorem Intact.silent (h : Intact s) (hget : s.rings.producers[j]? = some p) (hproduces : Produces s.rings j p r)
    (hphase : ∀ word, p.phase ≠ .payload word) : Intact ⟨r, s.claims, s.began⟩ := by
  have hmem := List.mem_of_getElem? hget
  have hslot := h.sound.slots p hmem
  obtain ⟨hsound, hwritten⟩ := h.sound.produce hget hproduces
  have hquiet : Quiet s ⟨r, s.claims, s.began⟩ := by
    refine ⟨fun _ _ _ => id, fun va i k hk => ?_, rfl⟩
    by_cases heq : va = p.va
    · subst heq
      cases hproduces with
      | silent _ mem _ hmem _ =>
        simp only [Rings.setMemory, Function.update_self]
        obtain rfl | ⟨v, rfl⟩ := hmem
        · rfl
        · exact slotWord_write64 v (.inl (by decide)) i hk
      | write word hword => exact absurd hword (hphase word)
      | commit _ =>
        simp only [Rings.setMemory, Function.update_self]
        exact slotWord_write64 _ (.inr ⟨_, hslot⟩) i hk
    · cases hproduces <;> simp only [Rings.setMemory, Function.update_of_ne heq]
  refine h.quiet hquiet hsound ?_ ?_ ?_ ?_ ?_ ?_
  · intro va c hle
    rw [hwritten] at hle
    exact h.fresh va c hle
  · exact fun key hkey => (hproduces.emits_perm hget).mem_iff.mpr hkey
  · cases hproduces with
    | silent phase _ hsilent _ _ =>
      intro q hq
      rcases List.mem_or_eq_of_mem_set hq with hold | rfl
      · exact .inl hold
      · refine .inr ⟨?_, h.calls p hmem⟩
        obtain rfl | ⟨_, rfl⟩ := hsilent <;> rfl
    | write word hword => exact absurd hword (hphase word)
    | commit _ => exact fun q hq => .inl (List.mem_of_mem_eraseIdx hq)
  · cases hproduces with
    | silent => exact fun _ _ => .inl
    | write word hword => exact absurd hword (hphase word)
    | commit hcommit =>
      intro va c hc
      obtain hold | hnew := List.mem_append.mp hc
      · exact .inl hold
      · exact .inr ⟨p, hmem, by rw [hcommit]; rfl, List.mem_singleton.mp hnew⟩
  · cases hproduces <;> exact fun _ => .inl
  · cases hproduces <;> exact fun _ _ => .inl

/-- A payload write goes to one word of one slot. -/
theorem Produces.words_of_ne {s : Rings} {va i k word : ℕ} (h : Produces s j p r) (hphase : p.phase = .payload word)
    (hslot : p.slot = slotAt (p.claimed.toNat % 4096)) (hword : word < 6) (hk : k < 6)
    (hne : ¬ (va = p.va ∧ slotAt i = p.slot ∧ k = word)) :
    slotWord (r.memory va) (slotAt i) k = slotWord (s.memory va) (slotAt i) k := by
  rw [h.eq_write hphase]
  by_cases hva : va = p.va
  · subst hva
    simp only [Rings.setMemory, Function.update_self]
    by_cases hi : slotAt i = p.slot
    · rw [hi, slotWord_writeWord p.call hk hword, if_neg fun heq => hne ⟨rfl, hi, heq⟩]
    · rw [hslot] at hi ⊢
      exact slotWord_writeWord_of_ne p.call (fun heq => hi (congrArg slotAt heq)) hk hword
  · simp only [Rings.setMemory, Function.update_of_ne hva]

theorem Produces.word_self {s : Rings} {word : ℕ} (h : Produces s j p r) (hphase : p.phase = .payload word)
    (hword : word < 6) : slotWord (r.memory p.va) p.slot word = p.call.word word := by
  rw [h.eq_write hphase]
  simp only [Rings.setMemory, Function.update_self]
  rw [slotWord_writeWord p.call hword hword, if_pos rfl]

/-- Whoever else began in the slot has lost it to this producer. -/
theorem began_update {va slot : ℕ} {c : UInt64}
    (h : Function.update s.began (p.va, p.slot) (some p.claimed) (va, slot) = some c) :
    ((va, slot) = (p.va, p.slot) ∧ (va, c) = (p.va, p.claimed)) ∨
      ((va, slot) ≠ (p.va, p.slot) ∧ s.began (va, slot) = some c) := by
  by_cases heq : (va, slot) = (p.va, p.slot)
  · rw [heq, Function.update_self, Option.some.injEq] at h
    exact .inl ⟨heq, by rw [(Prod.mk.inj heq).1, h]⟩
  · rw [Function.update_of_ne heq] at h
    exact .inr ⟨heq, h⟩

/-- A payload write goes into the slot that is this producer's by then, to a word no drain will read. -/
theorem Intact.write (h : Intact s) (hget : s.rings.producers[j]? = some p) (hproduces : Produces s.rings j p r)
    {word : ℕ} (hphase : p.phase = .payload word)
    (halone : word ≠ 0 → s.began (p.va, p.slot) = some p.claimed)
    (hread : ∀ d ∈ s.rings.drains, d.willRead p.va p.slot word = false) :
    Intact ⟨r, s.claims, Function.update s.began (p.va, p.slot) (some p.claimed)⟩ := by
  have hmem := List.mem_of_getElem? hget
  have hslot := h.sound.slots p hmem
  have hword := h.sound.words p hmem word hphase
  obtain ⟨hsound, hwritten⟩ := h.sound.produce hget hproduces
  obtain ⟨hnodup, _, hdisjoint⟩ := List.nodup_append.mp h.sound.once
  have hperm := hproduces.emits_perm hget
  have hr := hproduces.eq_write hphase
  have hsame {va i k : ℕ} (hk : k < 6) (hne : ¬ (va = p.va ∧ slotAt i = p.slot ∧ k = word)) :=
    hproduces.words_of_ne hphase hslot hword hk hne
  have hinflight : (p.va, p.claimed) ∈ s.rings.producers.map fun p => (p.va, p.claimed) :=
    List.mem_map_of_mem hmem
  have hbefore (k : ℕ) (hk : k < word) : slotWord (r.memory p.va) p.slot k = p.call.word k := by
    have hold := h.writing p hmem (halone (by omega)) k (by rw [hphase]; exact hk)
    rw [hslot] at hold ⊢
    exact (hsame (by omega) fun heq => absurd heq.2.2 (by omega)).trans hold
  constructor
  case sound => exact hsound
  case fresh =>
    intro va c hle
    rw [hwritten] at hle
    exact h.fresh va c hle
  case began =>
    intro va slot c hbegan
    obtain ⟨-, hclaimed⟩ | ⟨-, hold⟩ := began_update hbegan
    · rw [hclaimed]
      exact hperm.mem_iff.mpr (List.mem_append_left _ hinflight)
    · exact hperm.mem_iff.mpr (h.began va slot c hold)
  case calls =>
    rw [hr]
    intro q hq
    rcases List.mem_or_eq_of_mem_set hq with hold | rfl
    · exact h.calls q hold
    · exact h.calls p hmem
  case writing =>
    intro q hq hbegan k hk
    rw [hr] at hq
    rcases List.mem_or_eq_of_mem_set hq with hq | rfl
    · obtain ⟨-, hclaimed⟩ | ⟨hne, hold⟩ := began_update hbegan
      · obtain rfl := List.inj_on_of_nodup_map hnodup hq hmem hclaimed
        rw [hphase] at hk
        exact hbefore k hk
      · have hqslot := h.sound.slots q hq
        have hqword := h.writing q hq hold k hk
        rw [hqslot] at hne hqword ⊢
        exact (hsame (lt_of_lt_of_le hk (h.sound.done_le hq)) fun hat =>
          hne (Prod.ext hat.1 hat.2.1)).trans hqword
    · have hle : k ≤ word := by
        dsimp only at hk
        split at hk
        · exact Nat.le_of_lt_succ hk
        · have hk6 : k < 6 := hk
          omega
      obtain rfl | hlt := Nat.eq_or_lt_of_le hle
      · exact hproduces.word_self hphase hword
      · exact hbefore k hlt
  case settled =>
    intro va c hc
    rw [hr] at hc
    obtain ⟨call, hcall, hwords⟩ := h.settled va c hc
    refine ⟨call, hcall, fun hbegan k hk => ?_⟩
    obtain ⟨-, hclaimed⟩ | ⟨hne, hold⟩ := began_update hbegan
    · exact absurd hclaimed.symm (hdisjoint _ hinflight _ hc)
    · exact (hsame hk fun hat => hne (Prod.ext hat.1 hat.2.1)).trans (hwords hold k hk)
  case reading =>
    intro d hd writeIndex drained drainedNow slot word' q hreading
    have hd : d ∈ s.rings.drains := by rwa [hr] at hd
    obtain ⟨hlt, hindex, hreads⟩ := h.reading d hd _ _ _ _ _ _ hreading
    refine ⟨hlt, hindex, fun ref href => ?_⟩
    obtain ⟨rfl, call, hcall, hdone, hahead⟩ := hreads ref href
    refine ⟨rfl, call, hcall, hdone, fun k hk hle => ?_⟩
    refine (hsame hk ?_).trans (hahead k hk hle)
    rintro ⟨hva, hat, rfl⟩
    have hfree := hread d hd
    simp [Drain.willRead, hreading, Option.mem_def.mp href, hva, hat, hle] at hfree
  case whole =>
    rw [hr]
    exact h.whole

theorem undisturbed_payload {word : ℕ} (hget : s.rings.producers[j]? = some p) (hphase : p.phase = .payload word)
    (h : s.undisturbed (.produce j) = true) :
    (word ≠ 0 → s.began (p.va, p.slot) = some p.claimed) ∧
      ∀ d ∈ s.rings.drains, d.willRead p.va p.slot word = false := by
  obtain ⟨va, call, claimed, slot, phase⟩ := p
  obtain rfl : phase = .payload word := hphase
  simp only [Traced.undisturbed, hget, Bool.and_eq_true, Bool.or_eq_true, beq_iff_eq, List.all_eq_true,
    Bool.not_eq_true'] at h
  exact ⟨h.1.resolve_left, h.2⟩

theorem step_began (hget : s.rings.producers[j]? = some p) : (s.step (.produce j)).began =
    if p.phase = .payload 0 then Function.update s.began (p.va, p.slot) (some p.claimed) else s.began := by
  obtain ⟨va, call, claimed, slot, phase⟩ := p
  simp only [Traced.step, hget]
  rcases phase with _ | _ | word | _
  case payload => cases word <;> rfl
  all_goals rfl

theorem Intact.produce (h : Intact s) (j : ℕ) (hop : s.undisturbed (.produce j) = true) :
    Intact (s.step (.produce j)) := by
  cases hget : s.rings.producers[j]? with
  | none =>
    have hsame : s.step (.produce j) = s := by
      simp only [Traced.step, Rings.step, produce_of_none hget, hget]
    rw [hsame]
    exact h
  | some p =>
    have hstep : s.step (.produce j) = ⟨s.rings.produce j, s.claims, (s.step (.produce j)).began⟩ := rfl
    rw [hstep, step_began hget]
    by_cases hpayload : ∃ word, p.phase = .payload word
    · obtain ⟨word, hphase⟩ := hpayload
      obtain ⟨halone, hread⟩ := undisturbed_payload hget hphase hop
      have hwrite := h.write hget (produce_produces hget) hphase halone hread
      by_cases hfirst : word = 0
      · rwa [if_pos (hfirst ▸ hphase)]
      · rw [if_neg (by simpa [hphase] using hfirst)]
        rwa [← halone hfirst, Function.update_eq_self] at hwrite
    · have hsilent := not_exists.mp hpayload
      rw [if_neg (hsilent 0)]
      exact h.silent hget (produce_produces hget) hsilent

end

/-! ## Drains -/

theorem undisturbed_check {k : ℕ} {ref : RingRef} {more : List RingRef} {writeIndex drained : UInt64} {drainedNow : ℕ}
    (hget : s.rings.drains[k]? = some d) (hrings : d.rings = ref :: more)
    (hphase : d.phase = .slots writeIndex drained drainedNow)
    (hloop : drainedNow < 256 ∧ asI64 drained < asI64 writeIndex)
    (hseq : (s.rings.memory ref.va).word64 (drainSlot (s.rings.memory ref.va) drained) = drained + 1)
    (h : s.undisturbed (.advance k) = true) :
    s.began (ref.va, drainSlot (s.rings.memory ref.va) drained) = some drained := by
  obtain ⟨rings, phase, drainedTotal, droppedTotal⟩ := d
  obtain rfl : rings = ref :: more := hrings
  obtain rfl : phase = .slots writeIndex drained drainedNow := hphase
  simpa [Traced.undisturbed, hget, hloop, hseq] using h

theorem Intact.check (h : Intact s) {ref : RingRef} {drained : UInt64}
    (hseq : (s.rings.memory ref.va).word64 (drainSlot (s.rings.memory ref.va) drained) = drained + 1)
    (hbegan : s.began (ref.va, drainSlot (s.rings.memory ref.va) drained) = some drained) :
    drainSlot (s.rings.memory ref.va) drained = slotAt (drained.toNat % 4096) ∧
      ∃ call, s.claimants ref.va drained = [call] ∧ ∀ k < 6,
        slotWord (s.rings.memory ref.va) (slotAt (drained.toNat % 4096)) k = call.word k := by
  have hhonest := h.sound.honest ref.va
  have hbelow : drained.toNat < s.rings.written ref.va := h.sound.below _ (h.began _ _ _ hbegan)
  have hcommitted := hhonest.committed_of_seq (lt_trans hbelow hhonest.monotonic) hseq
  obtain ⟨call, hcall, hwords⟩ := h.settled ref.va drained hcommitted
  rw [hhonest.drainSlot_eq] at hbegan
  exact ⟨hhonest.drainSlot_eq drained, call, hcall, hwords hbegan⟩

/-- One more word is read, of the call that claimed the index. -/
theorem Intact.read (h : Intact s) (hd : d ∈ s.rings.drains) {ref : RingRef} {more : List RingRef}
    {writeIndex drained : UInt64} {drainedNow slot word : ℕ} {p : Promotion} (hrings : d.rings = ref :: more)
    (hphase : d.phase = .payload writeIndex drained drainedNow slot word p) :
    word < 6 ∧ (Rings.readWord (s.rings.memory ref.va) slot p word).index = drained ∧
      slot = slotAt (drained.toNat % 4096) ∧ ∃ call, s.claimants ref.va drained = [call] ∧
        (∀ k < word + 1, (Rings.readWord (s.rings.memory ref.va) slot p word).word k = call.word k) ∧
        ∀ k < 6, word + 1 ≤ k → slotWord (s.rings.memory ref.va) slot k = call.word k := by
  obtain ⟨hword, hindex, hreads⟩ := h.reading d hd _ _ _ _ _ _ hphase
  obtain ⟨hslot, call, hcall, hdone, hahead⟩ := hreads ref (by rw [hrings]; rfl)
  refine ⟨hword, (readWord_index _ _ _ _).trans hindex, hslot, call, hcall, fun k hk => ?_,
    fun k hk hle => hahead k hk (Nat.le_of_succ_le hle)⟩
  rw [readWord_word p (by omega) hword]
  split
  case isTrue heq =>
    rw [heq]
    exact hahead word hword (Nat.le_refl word)
  case isFalse hne => exact hdone k (by omega)

/-- Whatever else a drain does, it reads the words of one call. -/
theorem Intact.advance (h : Intact s) (k : ℕ) (hop : s.undisturbed (.advance k) = true) :
    Intact (s.step (.advance k)) := by
  have hstep : s.step (.advance k) = ⟨s.rings.advance k, s.claims, s.began⟩ := rfl
  rw [hstep]
  cases hget : s.rings.drains[k]? with
  | none =>
    rw [Rings.advance_of_none hget]
    exact h
  | some d =>
    have hadvances := advance_advances hget
    generalize s.rings.advance k = r at hadvances
    obtain ⟨hmemory, hproducers, hcommitted⟩ := hadvances.frame
    have hquiet : Quiet s ⟨r, s.claims, s.began⟩ :=
      ⟨fun _ _ _ => id, fun va i k _ => congrArg (slotWord · (slotAt i) k) (congrFun hmemory va), rfl⟩
    refine h.quiet hquiet (h.sound.congr hmemory hproducers hcommitted) ?_ ?_ ?_ ?_ ?_ ?_
    · intro va c hle
      simp only [Rings.written, hmemory] at hle
      exact h.fresh va c hle
    · simp only [Rings.emits, hproducers, hcommitted]
      exact List.Subset.refl _
    · exact fun p hp => .inl (hproducers ▸ hp)
    · exact fun _ _ hc => .inl (hcommitted ▸ hc)
    · cases hadvances with
      | check ref more writeIndex drained drainedNow hrings hphase hloop hseq =>
        intro x hx
        rcases List.mem_or_eq_of_mem_set hx with hold | rfl
        · exact .inl hold
        · obtain ⟨hslot, call, hcall, hwords⟩ :=
            h.check hseq (undisturbed_check hget hrings hphase hloop hseq hop)
          refine .inr ?_
          rintro _ _ _ _ _ _ ⟨⟩
          refine ⟨by decide, rfl, fun ref' href => ?_⟩
          obtain rfl : ref = ref' := by simpa [hrings] using href
          rw [hslot]
          exact ⟨rfl, call, hcall, fun _ h => absurd h (Nat.not_lt_zero _), fun k hk _ => hwords k hk⟩
      | read ref more writeIndex drained drainedNow slot word p hrings hphase =>
        obtain ⟨hword, hindex, hslot, call, hcall, hdone, hahead⟩ := h.read (List.mem_of_getElem? hget) hrings hphase
        unfold Rings.readPayload
        dsimp only
        intro x hx
        split at hx
        case isTrue hlt =>
          rcases List.mem_or_eq_of_mem_set hx with hold | rfl
          · exact .inl hold
          · refine .inr ?_
            rintro _ _ _ _ _ _ ⟨⟩
            refine ⟨by omega, hindex, fun ref' href => ?_⟩
            obtain rfl : ref = ref' := by simpa [hrings] using href
            rw [if_pos hlt]
            exact ⟨hslot, call, hcall, hdone, hahead⟩
        case isFalse =>
          rcases List.mem_or_eq_of_mem_set hx with hold | rfl
          · exact .inl hold
          · exact .inr fun _ _ _ _ _ _ h => by cases h
      | other _ _ _ _ hdrains =>
        intro x hx
        obtain hold | hquiet := hdrains x hx
        · exact .inl hold
        · refine .inr fun _ _ _ _ _ _ hphase => ?_
          rw [hphase] at hquiet
          cases hquiet
    · cases hadvances with
      | check => exact fun _ _ => .inl
      | read ref more writeIndex drained drainedNow slot word p hrings hphase =>
        obtain ⟨hword, hindex, hslot, call, hcall, hdone, -⟩ := h.read (List.mem_of_getElem? hget) hrings hphase
        unfold Rings.readPayload
        dsimp only
        intro ref' p' hp'
        split at hp'
        case isTrue => exact .inl hp'
        case isFalse hlast =>
          obtain hold | hnew := List.mem_append.mp hp'
          · exact .inl hold
          · obtain ⟨rfl, rfl⟩ := Consumed.promoted.inj (List.mem_singleton.mp hnew)
            refine .inr ⟨call, hindex ▸ hcall, writtenBy_of_words fun k hk => hdone k (by omega)⟩
      | other _ _ _ hconsumed _ => exact fun ref p hp => .inl (hconsumed ref p hp)

theorem Intact.drain (h : Intact s) : Intact (s.step .drain) := by
  have hstep : s.step .drain = ⟨s.rings.drain, s.claims, s.began⟩ := rfl
  have hmemory : s.rings.drain.memory = s.rings.memory := rfl
  have hquiet : Quiet s ⟨s.rings.drain, s.claims, s.began⟩ :=
    ⟨fun _ _ _ => id, fun va i k _ => congrArg (slotWord · (slotAt i) k) (congrFun hmemory va), rfl⟩
  rw [hstep]
  refine h.quiet hquiet (h.sound.congr hmemory rfl rfl) h.fresh (List.Subset.refl _) (fun _ => .inl)
    (fun _ _ => .inl) (fun x hx => ?_) fun _ _ => .inl
  obtain hold | hnew := List.mem_append.mp hx
  · exact .inl hold
  · rw [List.mem_singleton.mp hnew]
    exact .inr nofun

theorem Intact.step (h : Intact s) {op : RingStep} (hop : s.undisturbed op = true) : Intact (s.step op) := by
  cases op with
  | emit va call =>
    simp only [Traced.undisturbed, decide_eq_true_eq] at hop
    exact h.emit hop
  | produce j => exact h.produce j hop
  | drain => exact h.drain
  | advance k => exact h.advance k hop

end

/-! ## Whole runs -/

/-- As long as no step disturbs another, every promoted call is whole. -/
theorem run_promotes_whole (setup : Setup) (ops : List RingStep)
    (h : Along Traced.step (fun s op => s.undisturbed op = true) (.init setup) ops) :
    (run Traced.step (.init setup) ops).Whole :=
  (h.invariant (fun _ _ hs hop => hs.step hop) (init_intact setup)).whole

def alone : List RingStep := oneEmit ++ [.drain] ++ List.replicate 8 (.advance 0)

theorem alone_whole : (run Traced.step (.init oneRing) alone).Whole ∧
    (run Rings.step (Rings.init oneRing) alone).consumed = [.promoted ⟨1, 0, 7, 0⟩ ⟨0, 5, 9, 1, 2, 3, 4⟩] :=
  ⟨run_promotes_whole oneRing alone (by decide +kernel), by decide +kernel⟩

/-! ## A producer that laps the drain -/

theorem claims_emitted (s : Traced) (ops : List RingStep) :
    ∀ claim ∈ (run Traced.step s ops).claims, claim ∈ s.claims ∨ .emit claim.1 claim.2.2 ∈ ops := by
  induction ops generalizing s with
  | nil => exact fun _ => .inl
  | cons op ops ih =>
    intro claim hclaim
    obtain hold | hlater := ih (s.step op) claim hclaim
    · cases op with
      | emit va call =>
        simp only [Traced.step] at hold
        split at hold
        · exact .inl hold
        · obtain hold | hnew := List.mem_append.mp hold
          · exact .inl hold
          · obtain rfl := List.mem_singleton.mp hnew
            exact .inr List.mem_cons_self
      | _ => exact .inl hold
    · exact .inr (List.mem_cons_of_mem op hlater)

theorem mem_claimants {s : Traced} {va : ℕ} {index : UInt64} {call : Call} (h : call ∈ s.claimants va index) :
    (va, index, call) ∈ s.claims := by
  obtain ⟨⟨va', index', call'⟩, hclaim, rfl⟩ := List.mem_map.mp h
  obtain ⟨hmem, hkey⟩ := List.mem_filter.mp hclaim
  simp only [Bool.and_eq_true, beq_iff_eq] at hkey
  obtain ⟨rfl, rfl⟩ := hkey
  exact hmem

/-- Claims only raise `WriteIndex` and leave more threads inside `emit`. -/
theorem run_claims (s : Rings) (va : ℕ) (call : Call) (hstate : (s.memory va).word32 RingControl.state = 1)
    (hcount : (s.memory va).word32 RingControl.slotCount ≠ 0) (n : ℕ) :
    ∃ mem more, run Rings.step s (List.replicate n (.emit va call)) =
        { s.setMemory va mem with producers := s.producers ++ more } ∧ more.length = n ∧
      (∀ off len, off + len ≤ 16 ∨ 24 ≤ off → mem.read off len = (s.memory va).read off len) ∧
      mem.word64 RingControl.writeIndex = (s.memory va).word64 RingControl.writeIndex + .ofNat n := by
  induction n with
  | zero =>
    refine ⟨s.memory va, [], ?_, rfl, fun _ _ _ => rfl, by simp⟩
    simp [Rings.setMemory]
  | succ n ih =>
    obtain ⟨mem, more, hrun, hlength, hread, hindex⟩ := ih
    set t : Rings := { s.setMemory va mem with producers := s.producers ++ more } with ht
    have hmem : t.memory va = mem := by simp [ht, Rings.setMemory]
    have hsame (off : ℕ) (hoff : off + 4 ≤ 16) : mem.word32 off = (s.memory va).word32 off := by
      rw [Memory.word32, hread off 4 (.inl hoff), Memory.word32]
    set raised := mem.write64 RingControl.writeIndex (mem.word64 RingControl.writeIndex + 1) with hraised
    have hkept (off len : ℕ) (hoff : off + len ≤ 16 ∨ 24 ≤ off) : raised.read off len = (s.memory va).read off len :=
      (mem.read_write64_of_ne _ hoff).trans (hread off len hoff)
    have hcount' : raised.word32 RingControl.slotCount ≠ 0 := by
      rw [Memory.word32, hkept RingControl.slotCount 4 (.inl (by decide))]
      exact hcount
    obtain ⟨p, hva, hclaim⟩ : ∃ p : Producer, p.va = va ∧ t.step (.emit va call) = t.inEmit p raised :=
      ⟨_, rfl, emit_inEmit t va call (by rw [hmem, hsame _ (by decide)]; exact hstate) (by rw [hmem]) hcount'⟩
    refine ⟨raised, more ++ [p], ?_, by rw [List.length_append, hlength]; rfl, hkept, ?_⟩
    · rw [List.replicate_succ', run_append, hrun, run_cons, run_nil, hclaim]
      simp only [Rings.inEmit, Rings.setMemory, ht, hva, Function.update_idem, List.append_assoc]
    · rw [hraised, Memory.word64_write64, hindex, UInt64.add_assoc]
      exact congrArg _ (UInt64.ofNat_add n 1).symm

/-- An `emit` up to its first payload write. -/
theorem run_firstWord (s : Rings) (va : ℕ) (call : Call) (hstate : (s.memory va).word32 RingControl.state = 1)
    {raised : Memory} (hraised : raised = (s.memory va).write64 RingControl.writeIndex
      ((s.memory va).word64 RingControl.writeIndex + 1))
    (hcount : raised.word32 RingControl.slotCount ≠ 0) {slot : ℕ}
    (hslot : emitSlot raised ((s.memory va).word64 RingControl.writeIndex) = slot) :
    ∃ p mem, run Rings.step s (.emit va call :: List.replicate 3 (.produce s.producers.length)) = s.inEmit p mem ∧
      p.va = va ∧ mem.word32 (slot + 8) = call.api ∧
      ∀ off len, off + len ≤ 16 ∨ 32 ≤ off → off + len ≤ slot + 8 ∨ slot + 12 ≤ off →
        mem.read off len = (s.memory va).read off len := by
  obtain ⟨accounted, hproduced, haccounted⟩ : ∃ accounted,
      Rings.step (s.inEmit ⟨va, call, (s.memory va).word64 RingControl.writeIndex, slot,
          .account (raised.word64 slot)⟩ raised) (.produce s.producers.length) =
        s.inEmit ⟨va, call, (s.memory va).word64 RingControl.writeIndex, slot, .payload 0⟩ accounted ∧
      ∀ off len, off + len ≤ 16 ∨ 32 ≤ off → accounted.read off len = raised.read off len := by
    refine ⟨_, produce_inEmit s ⟨va, call, _, slot, .account (raised.word64 slot)⟩ raised, fun off len hoff => ?_⟩
    split
    · exact Memory.read_write64_of_ne _ _ (by rw [RingControl.dropped_off]; omega)
    · rfl
  have hload : Rings.step (s.inEmit ⟨va, call, (s.memory va).word64 RingControl.writeIndex, slot, .load⟩ raised)
      (.produce s.producers.length) =
        s.inEmit ⟨va, call, (s.memory va).word64 RingControl.writeIndex, slot, .account (raised.word64 slot)⟩ raised :=
    produce_inEmit s _ raised
  have hword : Rings.step (s.inEmit ⟨va, call, (s.memory va).word64 RingControl.writeIndex, slot, .payload 0⟩ accounted)
      (.produce s.producers.length) =
        s.inEmit ⟨va, call, (s.memory va).word64 RingControl.writeIndex, slot, .payload 1⟩
          (Rings.writeWord accounted slot call 0) :=
    produce_inEmit s _ accounted
  refine ⟨⟨va, call, (s.memory va).word64 RingControl.writeIndex, slot, .payload 1⟩, _, ?_, rfl,
    accounted.word32_write32 (slot + 8) call.api, fun off len hoff hapart => ?_⟩
  · simp only [List.replicate_succ, List.replicate_zero, run_cons, run_nil]
    rw [emit_inEmit s va call hstate hraised hcount, hslot, hload, hproduced, hword]
    rfl
  · rw [accounted.read_write32_of_ne _ hapart, haccounted off len hoff, hraised]
    exact (s.memory va).read_write64_of_ne _ (by rw [RingControl.writeIndex_off]; omega)

/-- With the drain behind `WriteIndex`, 4095 claims, and then one more that has written a word of the slot the
drain is about to check. -/
def lapped : List RingStep :=
  (oneEmit ++ [.drain, .advance 0]) ++ (List.replicate 4095 (.emit 1 ⟨5, 9, 1, 2, 3, 4⟩) ++
    ((.emit 1 ⟨6, 10, 5, 6, 7, 8⟩ :: List.replicate 3 (.produce 4095)) ++ List.replicate 7 (.advance 0)))

/-- What the drain finds: the sequence word is of the first lap, and so are all words but the first. -/
theorem run_lapped : ∃ u, run Rings.step (Rings.init oneRing) lapped = run Rings.step u (List.replicate 7 (.advance 0)) ∧
    u.drains = [⟨[⟨1, 0, 7, 0⟩], .slots 1 0 0, 0, 0⟩] ∧ (u.memory 1).word32 SensorRingControl.slotCount = 4096 ∧
    (u.memory 1).word64 32 = 1 ∧ (u.memory 1).word32 40 = 6 ∧ (u.memory 1).word32 44 = 9 := by
  obtain ⟨s, hs⟩ : ∃ s, run Rings.step (Rings.init oneRing) (oneEmit ++ [.drain, .advance 0]) = s := ⟨_, rfl⟩
  have hproducers : s.producers = [] := by
    rw [← hs]
    decide +kernel
  have hdrains : s.drains = [⟨[⟨1, 0, 7, 0⟩], .slots 1 0 0, 0, 0⟩] := by
    rw [← hs]
    decide +kernel
  have hmemory : (s.memory 1).word32 RingControl.state = 1 ∧ (s.memory 1).word32 RingControl.slotCount = 4096 ∧
      (s.memory 1).word64 RingControl.writeIndex = 1 ∧ (s.memory 1).word64 32 = 1 ∧ (s.memory 1).word32 44 = 9 := by
    rw [← hs]
    decide +kernel
  obtain ⟨hstate, hcount, hindex, hseq, hthread⟩ := hmemory
  obtain ⟨mem, more, hclaims, hlength, hread, hwritten⟩ :=
    run_claims s 1 ⟨5, 9, 1, 2, 3, 4⟩ hstate (by rw [hcount]; decide) 4095
  set t : Rings := { s.setMemory 1 mem with producers := s.producers ++ more } with ht
  have htmem : t.memory 1 = mem := by simp [ht, Rings.setMemory]
  have htlength : t.producers.length = 4095 := by simp [ht, hproducers, hlength]
  have hword32 (off : ℕ) (hoff : off + 4 ≤ 16 ∨ 24 ≤ off) : mem.word32 off = (s.memory 1).word32 off := by
    rw [Memory.word32, hread off 4 hoff, Memory.word32]
  have hclaimed : mem.word64 RingControl.writeIndex = 4096 := by
    rw [hwritten, hindex]
    decide
  have hcount' : (mem.write64 RingControl.writeIndex (mem.word64 RingControl.writeIndex + 1)).word32
      RingControl.slotCount = 4096 := by
    rw [Memory.word32_write64_of_ne _ _ (by decide), hword32 _ (.inl (by decide)), hcount]
  have hslot : emitSlot (mem.write64 RingControl.writeIndex (mem.word64 RingControl.writeIndex + 1))
      (mem.word64 RingControl.writeIndex) = 32 := by
    rw [emitSlot, hcount', hclaimed]
    decide
  obtain ⟨p, mem', hlap, hva, hapi, hkept⟩ := run_firstWord t 1 ⟨6, 10, 5, 6, 7, 8⟩
    (by rw [htmem, hword32 _ (.inl (by decide)), hstate]) rfl (by rw [htmem, hcount']; decide)
    (htmem.symm ▸ hslot)
  have hlapped : (t.inEmit p mem').memory 1 = mem' := by simp [Rings.inEmit, Rings.setMemory, hva]
  have hat (off len : ℕ) (hoff : off + len ≤ 16 ∨ 32 ≤ off) (hapart : off + len ≤ 40 ∨ 44 ≤ off) :
      mem'.read off len = (s.memory 1).read off len := by
    rw [hkept off len hoff hapart, htmem, hread off len (by omega)]
  refine ⟨t.inEmit p mem', ?_, hdrains, ?_, ?_, ?_, ?_⟩
  · rw [lapped, run_append, run_append, run_append, hs, hclaims, ← htlength, hlap]
  · rw [hlapped, Memory.word32, hat _ 4 (.inl (by decide)) (.inl (by decide))]
    exact hcount
  · rw [hlapped, Memory.word64, hat 32 8 (.inr (by decide)) (.inl (by decide))]
    exact hseq
  · rw [hlapped]
    exact hapi
  · rw [hlapped, Memory.word32, hat 44 4 (.inr (by decide)) (.inr (by decide))]
    exact hthread

/-- Index 0 is promoted as it stands in the slot. -/
theorem run_checked {u : Rings} (hdrains : u.drains = [⟨[⟨1, 0, 7, 0⟩], .slots 1 0 0, 0, 0⟩])
    (hcount : (u.memory 1).word32 SensorRingControl.slotCount = 4096) (hseq : (u.memory 1).word64 32 = 1) :
    .promoted ⟨1, 0, 7, 0⟩ (readPromotion (u.memory 1) 0 32) ∈
      (run Rings.step u (List.replicate 7 (.advance 0))).consumed := by
  have hslot : drainSlot (u.memory 1) 0 = 32 := by simp [drainSlot]
  have hk : 0 < u.drains.length := by
    rw [hdrains]
    decide
  have hchecked := @advance_committed u 0 hk ⟨[⟨1, 0, 7, 0⟩], .ring, 0, 0⟩ ⟨1, 0, 7, 0⟩ [] rfl [] 1 0 0
    (by decide) (by rw [hcount]; decide) (hslot.symm ▸ hseq)
  have hpromoted := @run_promote u 0 hk ⟨[⟨1, 0, 7, 0⟩], .ring, 0, 0⟩ ⟨1, 0, 7, 0⟩ [] rfl [] 1 0 0 32
  have hentered : u.inDrain 0 ⟨[⟨1, 0, 7, 0⟩], .slots 1 0 0, 0, 0⟩ [] = u := by
    have hset : u.drains.set 0 ⟨[⟨1, 0, 7, 0⟩], .slots 1 0 0, 0, 0⟩ = u.drains := by
      rw [hdrains]
      rfl
    rw [Rings.inDrain, hset, List.append_nil]
  dsimp only at hchecked hpromoted
  rw [hentered, hslot] at hchecked
  rw [List.replicate_succ, run_cons, hchecked, hpromoted]
  exact List.mem_append_right _ (List.mem_singleton.mpr rfl)

/-- The record of index 0 has the first word of index 4096. -/
theorem lapped_torn : ¬ (run Traced.step (.init oneRing) lapped).Whole := by
  intro hwhole
  obtain ⟨u, hrun, hdrains, hcount, hseq, hapi, hthread⟩ := run_lapped
  have hpromoted := run_checked hdrains hcount hseq
  have hrings : (run Traced.step (.init oneRing) lapped).rings = run Rings.step (Rings.init oneRing) lapped :=
    run_rings (.init oneRing) lapped
  rw [← hrun, ← hrings] at hpromoted
  obtain ⟨call, hcall, hfirst, hsecond, -⟩ := hwhole _ _ hpromoted
  have hclaimant := mem_claimants (hcall ▸ List.mem_singleton.mpr rfl)
  have hemitted := (claims_emitted (.init oneRing) lapped _ hclaimant).resolve_left List.not_mem_nil
  have hcalls : call = ⟨5, 9, 1, 2, 3, 4⟩ ∨ call = ⟨6, 10, 5, 6, 7, 8⟩ := by
    simp only [lapped, oneEmit, List.mem_append, List.mem_cons, List.mem_replicate, List.not_mem_nil,
      RingStep.emit.injEq, reduceCtorEq, and_false, or_false, true_and] at hemitted
    obtain hfirst | ⟨-, hlap⟩ | hlast := hemitted
    · exact .inl hfirst
    · exact .inl hlap
    · exact .inr hlast
  obtain rfl | rfl := hcalls
  · exact absurd (hapi.symm.trans hfirst) (by decide)
  · exact absurd (hthread.symm.trans hsecond) (by decide)

end SecOutfall.Sensor
