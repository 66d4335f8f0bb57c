import Mathlib.Data.List.Perm.Basic
import SecOutfall.Injection.NtdllBase

/-! Who owns the sections and views that challenges create.

A ring belongs to the challenge that created it, then to an entry, or it is released. The flag
`created` says that the challenge still owns it, and every exit must consult the flag. The exit
behind a lost race does not: a challenge that adopts the section of the winner returns with its
own ring neither owned nor released. Along runs without a lost race nothing is leaked and nothing
is released twice. -/
namespace SecOutfall.Injection
open Runs
set_option autoImplicit false

variable (upcase : UInt16 → UInt16)

/-! ## Ownership -/

def InjectionEntry.owns (entry : InjectionEntry) : List Resource :=
  ringResources entry.ringKernelVa entry.ringSection

/-- What a challenge has to release if it fails now. -/
def Challenge.owns (c : Challenge) : List Resource :=
  if c.created then ringResources c.freshVa c.fromSection else []

/-- What a challenge in flight has created, owned by it or not. -/
def Challenge.made (c : Challenge) : List Resource :=
  if c.hasRing then [] else ringResources c.freshVa c.fromSection

/-- How many of the holders' claims are on the resource. -/
def claims {α : Type} (owns : α → List Resource) (holders : List α) (r : Resource) : ℕ :=
  (holders.flatMap owns).count r

/-- Owned by one live entry, or by one entry that its exit is tearing down, or released once; never
two of these. -/
def Settled (s : Sensors) (r : Resource) : Prop :=
  claims InjectionEntry.owns s.engine.ledger r = 1 ∧ claims InjectionEntry.owns s.victims r = 0 ∧
      s.released.count r = 0 ∨
    claims InjectionEntry.owns s.engine.ledger r = 0 ∧ claims InjectionEntry.owns s.victims r = 1 ∧
      s.released.count r = 0 ∨
    claims InjectionEntry.owns s.engine.ledger r = 0 ∧ claims InjectionEntry.owns s.victims r = 0 ∧
      s.released.count r = 1

/-- A challenge that created a ring finds its entry still without one. -/
def WinsRace (s : Sensors) : Region → Prop
  | .passThree k => ∀ c ∈ s.challenges[k]?, c.phase = .passThree → c.hasRing = false →
      ∀ entry ∈ findEntry s.engine.ledger c.pid, entry.state = .injected →
        entry.createTime = c.createTime → entry.nonce = c.nonce → entry.ringKernelVa = none
  | _ => True

instance (s : Sensors) : ∀ region, Decidable (WinsRace s region)
  | .passThree k => inferInstanceAs (Decidable (∀ c ∈ s.challenges[k]?, c.phase = .passThree →
      c.hasRing = false → ∀ entry ∈ findEntry s.engine.ledger c.pid, entry.state = .injected →
        entry.createTime = c.createTime → entry.nonce = c.nonce → entry.ringKernelVa = none))
  | .engine _ | .destroy _ | .passOne _ | .passTwo .. | .epilogue .. | .register .. | .writeBack .. =>
    isTrue trivial

/-- The flag against the place the challenge has reached. -/
def Challenge.FlagHonest (c : Challenge) : Prop :=
  match c.phase with
  | .passTwo => c.created = false
  | .passThree => c.created = !c.hasRing ∧ (c.created = true → c.freshVa.isSome)
  | .epilogue false _ => c.created = true → c.hasRing = false
  | .epilogue true false => c.created = false
  | .epilogue true true => False

def Resource.ring : Resource → ℕ
  | .ringSection ring => ring
  | .ringView ring => ring

/-- Every resource created so far is claimed once. -/
structure Custody (s : Sensors) : Prop where
  conserved : ∀ r, s.created.count r = claims InjectionEntry.owns s.engine.ledger r +
    claims InjectionEntry.owns s.victims r + claims Challenge.owns s.challenges r + s.released.count r
  nodup : s.created.Nodup
  fresh : ∀ r ∈ s.created, r.ring < s.nextRing
  entries : ∀ entry ∈ s.engine.ledger, entry.ringKernelVa = none → entry.ringSection = none
  flags : ∀ c ∈ s.challenges, c.FlagHonest

/-! ## Counting claims -/

section
variable {α : Type} {owns : α → List Resource} {holders : List α} {r : Resource}

theorem claims_append (holders' : List α) :
    claims owns (holders ++ holders') r = claims owns holders r + claims owns holders' r := by
  simp [claims]

@[simp] theorem claims_singleton (x : α) : claims owns [x] r = (owns x).count r := by
  simp [claims]

theorem claims_of_perm {x : α} {rest : List α} (h : holders.Perm (x :: rest)) :
    claims owns holders r = (owns x).count r + claims owns rest r := by
  rw [claims, (h.flatMap_right owns).count_eq, List.flatMap_cons, List.count_append]
  rfl

theorem claims_eraseIdx {k : ℕ} {x : α} (h : holders[k]? = some x) :
    claims owns holders r = (owns x).count r + claims owns (holders.eraseIdx k) r := by
  obtain ⟨hk, rfl⟩ := List.getElem?_eq_some_iff.mp h
  exact claims_of_perm (List.getElem_cons_eraseIdx_perm hk).symm

theorem claims_set {k : ℕ} {x : α} (h : holders[k]? = some x) (y : α) :
    claims owns (holders.set k y) r = (owns y).count r + claims owns (holders.eraseIdx k) r := by
  obtain ⟨hk, -⟩ := List.getElem?_eq_some_iff.mp h
  exact claims_of_perm (List.set_perm_cons_eraseIdx hk y)

end

section
variable {ledger : List InjectionEntry} {pid : UInt32} {entry : InjectionEntry} {r : Resource}

theorem claims_updateEntry (h : findEntry ledger pid = some entry)
    (f : InjectionEntry → InjectionEntry) :
    claims InjectionEntry.owns (updateEntry pid f ledger) r + entry.owns.count r =
      claims InjectionEntry.owns ledger r + (f entry).owns.count r := by
  obtain ⟨before, after, hledger, hupdate, -⟩ := findEntry_split h
  rw [hupdate, hledger]
  simp only [claims, List.flatMap_append, List.flatMap_cons, List.count_append]
  omega

theorem claims_unlinkEntry (h : findEntry ledger pid = some entry) :
    claims InjectionEntry.owns (unlinkEntry ledger pid) r + entry.owns.count r =
      claims InjectionEntry.owns ledger r := by
  obtain ⟨before, after, hledger, -, hunlink⟩ := findEntry_split h
  rw [hunlink, hledger]
  simp only [claims, List.flatMap_append, List.flatMap_cons, List.count_append]
  omega

theorem claims_of_frame {ledger' : List InjectionEntry}
    (h : ledger'.map InjectionEntry.frame = ledger.map InjectionEntry.frame) :
    claims InjectionEntry.owns ledger' r = claims InjectionEntry.owns ledger r := by
  have howns : ∀ l : List InjectionEntry, l.flatMap InjectionEntry.owns =
      (l.map InjectionEntry.frame).flatMap fun frame => ringResources frame.2.2.2.2 frame.2.2.2.1 := by
    intro l
    rw [List.flatMap_map]
    rfl
  rw [claims, claims, howns, howns, h]

end

/-! ## Challenges in flight -/

/-- Custody with `c` in the place of the challenge at `k`. -/
structure CustodyAt (s : Sensors) (k : ℕ) (c : Challenge) : Prop where
  conserved : ∀ r, s.created.count r = claims InjectionEntry.owns s.engine.ledger r +
    claims InjectionEntry.owns s.victims r +
    (c.owns.count r + claims Challenge.owns (s.challenges.eraseIdx k) r) + s.released.count r
  nodup : s.created.Nodup
  fresh : ∀ r ∈ s.created, r.ring < s.nextRing
  entries : ∀ entry ∈ s.engine.ledger, entry.ringKernelVa = none → entry.ringSection = none
  flags : ∀ c ∈ s.challenges.eraseIdx k, c.FlagHonest
  inFlight : k < s.challenges.length

section
variable {s : Sensors} {k : ℕ} {c : Challenge}

theorem Custody.custodyAt (h : Custody s) (hget : s.challenges[k]? = some c) : CustodyAt s k c where
  conserved := by
    intro r
    rw [← claims_eraseIdx hget]
    exact h.conserved r
  nodup := h.nodup
  fresh := h.fresh
  entries := h.entries
  flags := fun c' hc' => h.flags c' (List.mem_of_mem_eraseIdx hc')
  inFlight := (List.getElem?_eq_some_iff.mp hget).1

theorem CustodyAt.put (h : CustodyAt s k c) (hflag : c.FlagHonest) :
    Custody { s with challenges := s.challenges.set k c } where
  conserved := by
    intro r
    rw [claims_set (List.getElem?_eq_getElem h.inFlight)]
    exact h.conserved r
  nodup := h.nodup
  fresh := h.fresh
  entries := h.entries
  flags := by
    intro c' hc'
    rcases List.mem_cons.mp ((List.set_perm_cons_eraseIdx h.inFlight c).mem_iff.mp hc') with rfl | hold
    · exact hflag
    · exact h.flags c' hold

theorem CustodyAt.conserved_of_none (h : CustodyAt s k c) (hnone : c.owns = []) (r : Resource) :
    s.created.count r = claims InjectionEntry.owns s.engine.ledger r +
      claims InjectionEntry.owns s.victims r + claims Challenge.owns (s.challenges.eraseIdx k) r +
      s.released.count r := by
  have hr := h.conserved r
  rwa [hnone, List.count_nil, Nat.zero_add] at hr

/-- A challenge that owns nothing may return as it is. -/
theorem CustodyAt.leave (h : CustodyAt s k c) (hnone : c.owns = []) :
    Custody { s with challenges := s.challenges.eraseIdx k } where
  conserved := h.conserved_of_none hnone
  nodup := h.nodup
  fresh := h.fresh
  entries := h.entries
  flags := h.flags

theorem Custody.returnFalse (h : Custody s) (pid : UInt32) : Custody (s.returnFalse pid) :=
  ⟨h.conserved, h.nodup, h.fresh, h.entries, h.flags⟩

theorem Custody.reject (h : Custody s) (pid : UInt32) : Custody (s.reject pid) :=
  ⟨h.conserved, h.nodup, h.fresh, h.entries, h.flags⟩

theorem Custody.countAllocFailure (h : Custody s) : Custody s.countAllocFailure :=
  ⟨h.conserved, h.nodup, h.fresh, h.entries, h.flags⟩

theorem CustodyAt.abandon (h : CustodyAt s k c) : Custody (s.abandon k c) := by
  apply Custody.reject
  by_cases hcreated : c.created = true
  · rw [Sensors.releaseFresh, if_pos hcreated]
    refine ⟨?_, h.nodup, h.fresh, h.entries, h.flags⟩
    intro r
    have hr := h.conserved r
    rw [Challenge.owns, if_pos hcreated] at hr
    simp only [List.count_append]
    omega
  · rw [Sensors.releaseFresh, if_neg hcreated]
    exact h.leave (by rw [Challenge.owns, if_neg hcreated])

theorem CustodyAt.duplicate (h : CustodyAt s k c) (openOk dupOk : Bool)
    (hflag : Challenge.FlagHonest { c with phase := .passThree }) :
    Custody (s.duplicate k c openOk dupOk) := by
  unfold Sensors.duplicate
  split
  · exact h.abandon
  · split
    · exact h.abandon
    · have hc : CustodyAt s k { c with phase := .passThree } :=
        ⟨h.conserved, h.nodup, h.fresh, h.entries, h.flags, h.inFlight⟩
      exact hc.put hflag

/-! ## Passes -/

theorem Custody.passOne (h : Custody s) (pid : UInt32) : Custody (s.passOne pid) := by
  unfold Sensors.passOne
  split
  · exact h.reject pid
  · split
    · exact h.reject pid
    · refine ⟨?_, h.nodup, h.fresh, h.entries, ?_⟩
      · intro r
        have hr := h.conserved r
        simpa [claims_append, Challenge.owns] using hr
      · intro c hc
        rcases List.mem_append.mp hc with hold | hnew
        · exact h.flags c hold
        · rw [List.mem_singleton.mp hnew]
          rfl

theorem Custody.not_mem_next (h : Custody s) {r : Resource} (hr : r.ring = s.nextRing) :
    r ∉ s.created := by
  intro hmem
  have hlt := h.fresh r hmem
  omega

/-- Numbering stays fresh when resources of the next ring are created. -/
theorem Custody.create (h : Custody s) (rs : List Resource) (hrs : rs.Nodup)
    (hring : ∀ r ∈ rs, r.ring = s.nextRing) :
    (s.created ++ rs).Nodup ∧ ∀ r ∈ s.created ++ rs, r.ring < s.nextRing + 1 := by
  constructor
  · apply h.nodup.append hrs
    intro r hold hnew
    exact h.not_mem_next (hring r hnew) hold
  · intro r hr
    rcases List.mem_append.mp hr with hold | hnew
    · exact Nat.lt_succ_of_lt (h.fresh r hold)
    · rw [hring r hnew]
      exact Nat.lt_succ_self _

/-- The section was created and could not be mapped: it is closed again. -/
theorem Custody.sectionOnly (h : Custody s) (hat : CustodyAt s k c) (hnone : c.owns = []) :
    Custody { s.createSection with
      challenges := s.createSection.challenges.eraseIdx k
      released := s.createSection.released ++ [.ringSection s.nextRing] } := by
  have hcreate := h.create [.ringSection s.nextRing] (List.nodup_singleton _) (by simp [Resource.ring])
  refine ⟨?_, hcreate.1, hcreate.2, h.entries, hat.flags⟩
  intro r
  have hr := hat.conserved_of_none hnone r
  simp only [Sensors.createSection, List.count_append]
  omega

/-- The section was created and mapped: the challenge owns both. -/
theorem Custody.freshRing (h : Custody s) (hat : CustodyAt s k c) (hnone : c.owns = []) :
    CustodyAt { s.createSection with created := s.createSection.created ++ [.ringView s.nextRing] } k
      { c with created := true, fromSection := some s.nextRing, freshVa := some s.nextRing } := by
  have hcreate := h.create [.ringSection s.nextRing, .ringView s.nextRing] (by simp) (by simp [Resource.ring])
  refine ⟨?_, ?_, ?_, h.entries, hat.flags, hat.inFlight⟩
  · intro r
    have hr := hat.conserved_of_none hnone r
    simp only [Sensors.createSection, Challenge.owns, ringResources, List.count_append, if_true,
      Option.toList_some, List.map_cons, List.map_nil]
    omega
  · simpa [Sensors.createSection] using hcreate.1
  · simpa [Sensors.createSection] using hcreate.2

theorem Custody.passTwo (h : Custody s) (k : ℕ) (createOk mapOk openOk dupOk : Bool) :
    Custody (s.passTwo k createOk mapOk openOk dupOk) := by
  unfold Sensors.passTwo
  split
  · exact h
  · rename_i c hget
    have hat := h.custodyAt hget
    have hflag := h.flags c (List.mem_of_getElem? hget)
    split
    · exact h
    · rename_i hphase
      rw [not_not] at hphase
      rw [Challenge.FlagHonest, hphase] at hflag
      have hnone : c.owns = [] := by simp [Challenge.owns, hflag]
      split
      · rename_i hring
        have hc : CustodyAt s k { c with fromSection := c.existingSection } := by
          refine ⟨?_, h.nodup, h.fresh, h.entries, hat.flags, hat.inFlight⟩
          intro r
          have hr := hat.conserved r
          rw [hnone] at hr
          simpa [Challenge.owns, hflag] using hr
        apply hc.duplicate
        simp [Challenge.FlagHonest, hflag, hring]
      · rename_i hring
        split
        · exact (hat.leave hnone).countAllocFailure.returnFalse c.pid
        · split
          · exact (h.sectionOnly hat hnone).countAllocFailure.returnFalse c.pid
          · apply (h.freshRing hat hnone).duplicate
            simp [Challenge.FlagHonest, hring]

theorem CustodyAt.transfer (h : CustodyAt s k c) (hcreated : c.created = true)
    (hva : c.freshVa.isSome) {entry : InjectionEntry}
    (hfind : findEntry s.engine.ledger c.pid = some entry) (hentry : entry.ringKernelVa = none) :
    Custody (Sensors.setLedger
      { s with challenges := s.challenges.set k { c with phase := .epilogue true false, created := false } }
      (updateEntry c.pid (fun e => { e with
        ringSection := c.fromSection, ringKernelVa := c.freshVa, ringDrainIndex := 0 })
        s.engine.ledger)) where
  conserved := by
    intro r
    have hr := h.conserved r
    have hempty : entry.owns = [] := by
      rw [InjectionEntry.owns, hentry, h.entries entry (findEntry_mem hfind).1 hentry]
      rfl
    have hledger := claims_updateEntry (r := r) hfind fun e =>
      { e with ringSection := c.fromSection, ringKernelVa := c.freshVa, ringDrainIndex := 0 }
    rw [Challenge.owns, if_pos hcreated] at hr
    rw [hempty, List.count_nil] at hledger
    simp only [InjectionEntry.owns] at hledger
    simp only [Sensors.setLedger]
    rw [claims_set (List.getElem?_eq_getElem h.inFlight)]
    simp only [Challenge.owns, Bool.false_eq_true, if_false, List.count_nil]
    omega
  nodup := h.nodup
  fresh := h.fresh
  entries := by
    intro e he hnone
    rcases mem_updateEntry he with hold | ⟨old, -, rfl⟩
    · exact h.entries e hold hnone
    · simp only at hnone
      rw [hnone] at hva
      exact absurd hva (by simp)
  flags := by
    intro c' hc'
    rcases List.mem_cons.mp ((List.set_perm_cons_eraseIdx h.inFlight _).mem_iff.mp hc') with rfl | hold
    · rfl
    · exact h.flags c' hold

theorem Custody.passThree (h : Custody s) (k : ℕ) (hwins : WinsRace s (.passThree k)) :
    Custody (s.passThree k) := by
  unfold Sensors.passThree
  split
  · exact h
  · rename_i c hget
    have hflag := h.flags c (List.mem_of_getElem? hget)
    split
    · exact h
    · rename_i hphase
      rw [not_not] at hphase
      simp only [Challenge.FlagHonest, hphase] at hflag
      have hput : ∀ ok adopt, Challenge.FlagHonest { c with phase := .epilogue ok adopt } →
          Custody { s with challenges := s.challenges.set k { c with phase := .epilogue ok adopt } } := by
        intro ok adopt hhonest
        have hat := h.custodyAt hget
        have hc : CustodyAt s k { c with phase := .epilogue ok adopt } :=
          ⟨hat.conserved, hat.nodup, hat.fresh, hat.entries, hat.flags, hat.inFlight⟩
        exact hc.put hhonest
      have hfailed : Challenge.FlagHonest { c with phase := .epilogue false false } := by
        intro hcreated
        have hnot := hflag.1
        rw [show c.created = true from hcreated] at hnot
        simpa using hnot.symm
      simp only
      split
      · exact hput false false hfailed
      · rename_i entry hfind
        split
        · rename_i hmatch
          obtain ⟨hinjected, htime, hnonce⟩ := hmatch
          by_cases hring : c.hasRing = true
          · rw [if_pos (by simp [hring]), if_neg (by simp [hring])]
            exact hput true false (by simp [Challenge.FlagHonest, hflag.1, hring])
          · have hfree := hwins c hget hphase (by simpa using hring) entry hfind hinjected htime hnonce
            have hcreated : c.created = true := by simpa [hring] using hflag.1
            rw [if_neg (by simp [hring, hfree])]
            exact (h.custodyAt hget).transfer hcreated (hflag.2 hcreated) hfind hfree
        · exact hput false false hfailed

theorem Custody.epilogue (h : Custody s) (k : ℕ) (openOk dupOk : Bool) :
    Custody (s.epilogue k openOk dupOk) := by
  unfold Sensors.epilogue
  split
  · exact h
  · rename_i c hget
    have hflag := h.flags c (List.mem_of_getElem? hget)
    split
    · exact (h.custodyAt hget).abandon
    · rename_i hphase
      rw [Challenge.FlagHonest, hphase] at hflag
      exact hflag.elim
    · rename_i hphase
      rw [Challenge.FlagHonest, hphase] at hflag
      have hleft := (h.custodyAt hget).leave (by simp [Challenge.owns, hflag])
      exact ⟨hleft.conserved, hleft.nodup, hleft.fresh, hleft.entries, hleft.flags⟩
    · exact h

/-! ## Steps and runs -/

theorem Custody.of_frame (h : Custody s) (engine : Engine)
    (hframe : engine.ledger.map InjectionEntry.frame = s.engine.ledger.map InjectionEntry.frame) :
    Custody { s with engine } where
  conserved := by
    intro r
    rw [claims_of_frame hframe]
    exact h.conserved r
  nodup := h.nodup
  fresh := h.fresh
  entries := by
    intro entry hentry
    have hmem : entry.frame ∈ s.engine.ledger.map InjectionEntry.frame :=
      hframe ▸ List.mem_map_of_mem hentry
    obtain ⟨old, hold, heq⟩ := List.mem_map.mp hmem
    simp only [InjectionEntry.frame, Prod.mk.injEq] at heq
    rw [← heq.2.2.2.1, ← heq.2.2.2.2]
    exact h.entries old hold
  flags := h.flags

theorem Custody.exit (h : Custody s) (pid : UInt32) :
    Custody (s.step upcase (.engine (.processExit pid))) := by
  simp only [Sensors.step, step, unlinked]
  cases hfind : findEntry s.engine.ledger pid with
  | none =>
    have hledger : unlinkEntry s.engine.ledger pid = s.engine.ledger :=
      List.eraseP_of_forall_not (List.find?_eq_none.mp hfind)
    simp only [onProcessExit, hledger, Option.toList_none, List.append_nil]
    exact h.of_frame _ rfl
  | some entry =>
    refine ⟨?_, h.nodup, h.fresh, ?_, h.flags⟩
    · intro r
      have hr := h.conserved r
      have hunlink := claims_unlinkEntry (r := r) hfind
      simp only [onProcessExit, claims_append, Option.toList_some, claims_singleton]
      omega
    · intro e he
      exact h.entries e (List.mem_of_mem_eraseP he)

theorem Custody.create_entry (h : Custody s) {engine : Engine} {pid : UInt32} {createTime nonce : UInt64}
    (hledger : engine.ledger = s.engine.ledger ++
      [⟨pid, createTime, nonce, none, 0, .pendingThread, none, none, 0, 0⟩]) :
    Custody { s with engine } where
  conserved := by
    intro r
    have hr := h.conserved r
    rw [hledger, claims_append, claims_singleton]
    exact hr
  nodup := h.nodup
  fresh := h.fresh
  entries := by
    intro entry hentry
    rw [hledger] at hentry
    rcases List.mem_append.mp hentry with hold | hnew
    · exact h.entries entry hold
    · rw [List.mem_singleton.mp hnew]
      intro _
      rfl
  flags := h.flags

theorem Custody.engine (h : Custody s) (op : Op) : Custody (s.step upcase (.engine op)) := by
  by_cases hexit : ∃ pid, op = .processExit pid
  · obtain ⟨pid, rfl⟩ := hexit
    exact h.exit upcase pid
  · have hvictims : s.victims ++ unlinked s.engine.ledger op = s.victims := by
      cases op with
      | processExit pid => exact absurd ⟨pid, rfl⟩ hexit
      | _ => exact List.append_nil _
    simp only [Sensors.step, hvictims]
    obtain hframe | ⟨pid, createTime, nonce, -, hledger⟩ | hexit' := step_frame upcase s.engine op
    · exact h.of_frame _ hframe
    · exact h.create_entry hledger
    · exact absurd hexit' hexit

theorem Custody.destroyLedgerEntry (h : Custody s) (j : ℕ) : Custody (s.destroyLedgerEntry j) := by
  unfold Sensors.destroyLedgerEntry
  split
  · exact h
  · rename_i entry hget
    refine ⟨?_, h.nodup, h.fresh, h.entries, h.flags⟩
    intro r
    have hr := h.conserved r
    rw [claims_eraseIdx hget, InjectionEntry.owns] at hr
    simp only [List.count_append]
    omega

theorem Custody.register (h : Custody s) (pid : UInt32) (nonce : UInt64) (sensorVersion : UInt32) :
    Custody (s.register pid nonce sensorVersion) := by
  obtain heq | ⟨entry, -, -, -, heq⟩ := s.register_cases pid nonce sensorVersion
  · rw [heq]
    exact ⟨h.conserved, h.nodup, h.fresh, h.entries, h.flags⟩
  · rw [heq]
    have hframe := h.of_frame { s.engine with
      ledger := updateEntry pid (fun e => { e with state := .registered, sensorVersion }) s.engine.ledger }
      (by apply updateEntry_map; intro _; rfl)
    exact ⟨hframe.conserved, hframe.nodup, hframe.fresh, hframe.entries, hframe.flags⟩

theorem Custody.step (h : Custody s) (region : Region) (hwins : WinsRace s region) :
    Custody (s.step upcase region) := by
  cases region with
  | engine op => exact h.engine upcase op
  | destroy j => exact h.destroyLedgerEntry j
  | passOne pid => exact h.passOne pid
  | passTwo k createOk mapOk openOk dupOk => exact h.passTwo k createOk mapOk openOk dupOk
  | passThree k => exact h.passThree k hwins
  | epilogue k openOk dupOk => exact h.epilogue k openOk dupOk
  | register pid nonce sensorVersion => exact h.register pid nonce sensorVersion
  | writeBack va drained => exact h.of_frame _ (Sensors.writeCursor_frame va drained _)

/-- A challenge owns nothing it did not make. -/
theorem Challenge.FlagHonest.owns_made {c : Challenge} (h : c.FlagHonest) {r : Resource}
    (hr : r ∈ c.owns) : r ∈ c.made := by
  by_cases hcreated : c.created = true
  · have hring : c.hasRing = false := by
      unfold Challenge.FlagHonest at h
      split at h
      · rw [hcreated] at h
        exact absurd h (by simp)
      · rw [hcreated] at h
        simpa using h.1.symm
      · exact h hcreated
      · rw [hcreated] at h
        exact absurd h (by simp)
      · exact h.elim
    rw [Challenge.owns, if_pos hcreated] at hr
    rwa [Challenge.made, hring]
  · rw [Challenge.owns, if_neg hcreated] at hr
    exact absurd hr List.not_mem_nil

theorem Custody.settled (h : Custody s) {r : Resource} (hr : r ∈ s.created)
    (hreturned : ∀ c ∈ s.challenges, r ∉ c.made) : Settled s r := by
  have hone : s.created.count r = 1 := List.count_eq_one_of_mem h.nodup hr
  have hnone : claims Challenge.owns s.challenges r = 0 := by
    apply List.count_eq_zero.mpr
    intro hmem
    obtain ⟨c, hc, hrc⟩ := List.mem_flatMap.mp hmem
    exact hreturned c hc ((h.flags c hc).owns_made hrc)
  have hsum := h.conserved r
  unfold Settled
  omega

end

theorem init_custody (policy : Policy) : Custody (Sensors.init policy) :=
  ⟨fun _ => rfl, List.nodup_nil, by simp [Sensors.init], by simp [Sensors.init, init],
    by simp [Sensors.init]⟩

/-- Along every interleaving without a lost race, what a challenge that has returned created is
owned by one entry or released once. -/
theorem run_rings_settled (policy : Policy) (regions : List Region)
    (h : Along (Sensors.step upcase) WinsRace (Sensors.init policy) regions) (r : Resource)
    (hr : r ∈ (run (Sensors.step upcase) (Sensors.init policy) regions).created)
    (hreturned : ∀ c ∈ (run (Sensors.step upcase) (Sensors.init policy) regions).challenges, r ∉ c.made) :
    Settled (run (Sensors.step upcase) (Sensors.init policy) regions) r :=
  (h.invariant (fun _ region hs hwins => hs.step upcase region hwins) (init_custody policy)).settled
    hr hreturned

/-! ## Two challenges of one process -/

def injectedProcess : List Region :=
  [.engine (.resolve (Control.wide "\\ntdll.dll") (some 0x5000)),
   .engine (.processCreate 4000 7 none 0 true),
   .engine (.imageLoad 4000 0x7FF0 (Control.wide "\\ntdll.dll")),
   .engine (.firstThread 4000 1),
   .engine (.attempt 0 true true),
   .engine (.fixup 0)]

/-- One challenge, then the process exits. -/
def oneChallenge : List Region :=
  injectedProcess ++ [.passOne 4000, .passTwo 0 true true true true, .passThree 0,
    .epilogue 0 true true, .engine (.processExit 4000), .destroy 0]

theorem oneChallenge_settled :
    Settled (run (Sensors.step asciiUpcase) (Sensors.init everyProcess) oneChallenge) (.ringView 0) :=
  run_rings_settled asciiUpcase everyProcess oneChallenge (by decide) (.ringView 0) (by decide) (by decide)

/-- Two threads of one process challenge at once; both pass the gate before either has a ring. -/
def racingChallenges : List Region :=
  injectedProcess ++ [.passOne 4000, .passOne 4000, .passTwo 0 true true true true,
    .passTwo 1 true true true true, .passThree 0, .passThree 1, .epilogue 0 true true,
    .epilogue 0 true true]

/-- The loser returns with the winner's section; its own is gone from every account. -/
theorem racingChallenges_leak :
    ¬ (Resource.ringSection 1 ∈ (run (Sensors.step asciiUpcase) (Sensors.init everyProcess)
          racingChallenges).created →
      (∀ c ∈ (run (Sensors.step asciiUpcase) (Sensors.init everyProcess) racingChallenges).challenges,
        Resource.ringSection 1 ∉ c.made) →
      Settled (run (Sensors.step asciiUpcase) (Sensors.init everyProcess) racingChallenges)
        (.ringSection 1)) := by
  unfold Settled
  decide

end SecOutfall.Injection
