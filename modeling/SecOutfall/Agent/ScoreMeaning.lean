import Mathlib.Data.List.Induction
import Mathlib.Data.Set.Insert
import Mathlib.Order.Bounds.Defs
import SecOutfall.Agent.Scoring

/-! The session score by the history of bus events: the greatest weight some event or chain earned. -/
namespace SecOutfall.Agent
open AssocList
set_option autoImplicit false

/-! ## What earns a weight -/

def callsStep (pid : UInt32) (calls : List UInt32) : AgentBusEvent → List UInt32
  | .behaviorObserved caller api => if caller = pid then calls ++ [api] else calls
  | .processExitedScope exited _ => if exited = pid then [] else calls
  | _ => calls

/-- The apis a pid called since its last exit. -/
def callsSince (pid : UInt32) (history : List AgentBusEvent) : List UInt32 := history.foldl (callsStep pid) []

def trackStep (pids : List UInt32) : AgentBusEvent → List UInt32
  | .behaviorObserved pid _ => if pid ∈ pids then pids else pids ++ [pid]
  | .processExitedScope pid _ => pids.filter (· != pid)
  | _ => pids

/-- The pids that called something since their last exit. -/
def trackedPids (history : List AgentBusEvent) : List UInt32 := history.foldl trackStep []

/-- Every member often enough. -/
def Complete (chain : ChainId) (calls : List UInt32) : Prop :=
  ∀ member ∈ chain.members, member.2.toNat ≤ calls.count member.1

instance (chain : ChainId) (calls : List UInt32) : Decidable (Complete chain calls) :=
  List.decidableBAll (fun member : UInt32 × UInt32 => member.2.toNat ≤ calls.count member.1) chain.members

inductive Earned (weights : ScoreWeights) (history : List AgentBusEvent) : UInt32 → Prop where
  | cliStarted (pid : UInt32) (name : String) (hentered : .processEnteredScope pid name ∈ history)
      (hcli : isCliInterpreter name = true) : Earned weights history weights.cliStarted
  | dropObserved (path : String) (pid : Option UInt32) (hobserved : .dropObserved path pid ∈ history) :
    Earned weights history weights.dropObserved
  | runKeySet (pid : UInt32) (hcalled : .behaviorObserved pid BehaviorApi.ntSetValueKeyRunKey ∈ history) :
    Earned weights history weights.runKeySet
  | chain (chain : ChainId) (pid : UInt32) (before stretch after : List AgentBusEvent)
      (hsplit : history = before ++ stretch ++ after)
      (hstays : ∀ name, .processExitedScope pid name ∉ stretch)
      (hmembers : ∀ member ∈ chain.members, member.2.toNat ≤ stretch.count (.behaviorObserved pid member.1)) :
    Earned weights history (chain.weight weights)

/-! ## Calls of a pid -/

theorem callsSince_concat (pid : UInt32) (history : List AgentBusEvent) (event : AgentBusEvent) :
    callsSince pid (history ++ [event]) = callsStep pid (callsSince pid history) event := by
  simp [callsSince]

theorem trackedPids_concat (history : List AgentBusEvent) (event : AgentBusEvent) :
    trackedPids (history ++ [event]) = trackStep (trackedPids history) event := by
  simp [trackedPids]

theorem Complete.mono {chain : ChainId} {calls calls' : List UInt32} (h : Complete chain calls)
    (hsublist : calls.Sublist calls') : Complete chain calls' :=
  fun member hmember => Nat.le_trans (h member hmember) (hsublist.count_le member.1)

theorem not_complete_nil (chain : ChainId) : ¬ Complete chain [] := by
  intro h
  cases chain with
  | injection => exact absurd (h (BehaviorApi.ntCreateThreadEx, 1) (by simp [ChainId.members])) (by decide)
  | ransomware => exact absurd (h (BehaviorApi.cryptEncrypt, 8) (by simp [ChainId.members])) (by decide)

/-- A call that is no member completes nothing. -/
theorem Complete.of_runKey {chain : ChainId} {calls : List UInt32}
    (h : Complete chain (calls ++ [BehaviorApi.ntSetValueKeyRunKey])) : Complete chain calls := by
  intro member hmember
  have hne : BehaviorApi.ntSetValueKeyRunKey ≠ member.1 := by
    cases chain <;> simp [ChainId.members] at hmember <;> rcases hmember with rfl | rfl <;> decide
  have hcount := h member hmember
  rwa [List.count_append, List.count_singleton, if_neg (by simpa using hne), Nat.add_zero] at hcount

/-- What a stretch without an exit adds. -/
theorem callsSince_append {pid : UInt32} (before : List AgentBusEvent) {stretch : List AgentBusEvent}
    (hstays : ∀ name, .processExitedScope pid name ∉ stretch) :
    ∃ calls, callsSince pid (before ++ stretch) = callsSince pid before ++ calls ∧
      ∀ api, calls.count api = stretch.count (.behaviorObserved pid api) := by
  induction stretch using List.reverseRecOn with
  | nil => exact ⟨[], by simp, fun api => rfl⟩
  | append_singleton stretch event ih =>
    obtain ⟨calls, hcalls, hcount⟩ := ih fun name hmem => hstays name (List.mem_append_left _ hmem)
    have hstep : callsSince pid (before ++ (stretch ++ [event])) =
        callsStep pid (callsSince pid before ++ calls) event := by
      rw [← List.append_assoc, callsSince_concat, hcalls]
    rw [hstep]
    cases event with
    | behaviorObserved caller called =>
      by_cases hcaller : caller = pid
      · subst hcaller
        refine ⟨calls ++ [called], by simp [callsStep], fun api => ?_⟩
        simp [List.count_append, hcount, List.count_singleton]
      · refine ⟨calls, by simp [callsStep, hcaller], fun api => ?_⟩
        simp [List.count_append, hcount, hcaller]
    | processExitedScope exited name =>
      have hother : exited ≠ pid := by
        rintro rfl
        exact hstays name (List.mem_append_right _ (List.mem_singleton.mpr rfl))
      refine ⟨calls, by simp [callsStep, hother], fun api => ?_⟩
      simp [List.count_append, hcount]
    | _ =>
      refine ⟨calls, rfl, fun api => ?_⟩
      simp [List.count_append, hcount]

/-- The calls since the last exit are those of the stretch behind it. -/
theorem callsSince_stretch (pid : UInt32) (history : List AgentBusEvent) :
    ∃ before stretch, history = before ++ stretch ∧ (∀ name, .processExitedScope pid name ∉ stretch) ∧
      callsSince pid before = [] := by
  induction history using List.reverseRecOn with
  | nil => exact ⟨[], [], rfl, by simp, rfl⟩
  | append_singleton history event ih =>
    by_cases hexit : ∃ name, event = .processExitedScope pid name
    · obtain ⟨name, rfl⟩ := hexit
      exact ⟨history ++ [.processExitedScope pid name], [], by simp, by simp, by simp [callsSince_concat, callsStep]⟩
    · obtain ⟨before, stretch, rfl, hstays, hnone⟩ := ih
      refine ⟨before, stretch ++ [event], by simp, fun name hmem => ?_, hnone⟩
      obtain hold | hnew := List.mem_append.mp hmem
      · exact hstays name hold
      · exact hexit ⟨name, (List.mem_singleton.mp hnew).symm⟩

/-- A chain is earned exactly if its pid's calls are complete somewhere along the history. -/
theorem earned_chain_iff (history : List AgentBusEvent) (chain : ChainId) (pid : UInt32) :
    (∃ before stretch after, history = before ++ stretch ++ after ∧
        (∀ name, .processExitedScope pid name ∉ stretch) ∧
        ∀ member ∈ chain.members, member.2.toNat ≤ stretch.count (.behaviorObserved pid member.1)) ↔
      ∃ before after, history = before ++ after ∧ Complete chain (callsSince pid before) := by
  constructor
  · rintro ⟨before, stretch, after, hsplit, hstays, hmembers⟩
    obtain ⟨calls, hcalls, hcount⟩ := callsSince_append before hstays
    have hcomplete : Complete chain calls := fun member hmember => hcount member.1 ▸ hmembers member hmember
    exact ⟨before ++ stretch, after, hsplit, hcalls ▸ hcomplete.mono (List.sublist_append_right _ _)⟩
  · rintro ⟨before, after, hsplit, hcomplete⟩
    obtain ⟨front, stretch, rfl, hstays, hnone⟩ := callsSince_stretch pid before
    obtain ⟨calls, hcalls, hcount⟩ := callsSince_append front hstays
    rw [hcalls, hnone, List.nil_append] at hcomplete
    exact ⟨front, stretch, after, hsplit, hstays, fun member hmember => hcount member.1 ▸ hcomplete member hmember⟩

/-! ## The detector follows the calls -/

/-- A slot counts the calls, and has fired what they complete. -/
structure PidBehavior.Follows (slot : PidBehavior) (calls : List UInt32) : Prop where
  counts : ∀ api, (countOf slot.counts api).toNat = calls.count api
  fired : ∀ chain, chain ∈ slot.fired ↔ Complete chain calls
  runKeySeen : slot.runKeySeen = true ↔ BehaviorApi.ntSetValueKeyRunKey ∈ calls

theorem PidBehavior.empty_follows : PidBehavior.empty.Follows [] := by
  refine ⟨fun api => rfl, fun chain => ?_, ?_⟩
  · simp [PidBehavior.empty, not_complete_nil]
  · simp [PidBehavior.empty]

theorem countOf_bump (counts : List (UInt32 × UInt32)) (api other : UInt32) :
    countOf (bump counts api) other = if other = api then countOf counts api + 1 else countOf counts other := by
  rw [countOf, bump, lookup_upsert]
  by_cases hsame : other = api
  · rw [if_pos hsame, if_pos hsame, countOf]
    cases counts.lookup api <;> rfl
  · rw [if_neg hsame, if_neg hsame, countOf]

/-- What one chain of the loop does. -/
theorem PidBehavior.tryFire_spec (slot : PidBehavior) (chains : List ChainId) (chain : ChainId)
    {calls : List UInt32} (hcounts : ∀ api, (countOf slot.counts api).toNat = calls.count api) :
    (slot.tryFire chains chain).1.counts = slot.counts ∧
      (slot.tryFire chains chain).1.runKeySeen = slot.runKeySeen ∧
      (∀ other, other ∈ (slot.tryFire chains chain).1.fired ↔
        other ∈ slot.fired ∨ other = chain ∧ Complete chain calls) ∧
      ∀ other, other ∈ (slot.tryFire chains chain).2 ↔
        other ∈ chains ∨ other = chain ∧ chain ∉ slot.fired ∧ Complete chain calls := by
  have hcomplete : (chain.members.all fun member => member.2 ≤ countOf slot.counts member.1) = true ↔
      Complete chain calls := by
    simp [Complete, UInt32.le_iff_toNat_le, hcounts]
  unfold PidBehavior.tryFire
  by_cases hfired : slot.fired.contains chain
  · have hmem := List.contains_iff_mem.mp hfired
    rw [if_pos hfired]
    refine ⟨rfl, rfl, fun other => ?_, fun other => ?_⟩
    · exact ⟨.inl, fun h => h.elim id fun h => h.1 ▸ hmem⟩
    · exact ⟨.inl, fun h => h.elim id fun h => absurd hmem h.2.1⟩
  · have hmem : chain ∉ slot.fired := fun h => hfired (List.contains_iff_mem.mpr h)
    rw [if_neg hfired]
    by_cases hall : (chain.members.all fun member => member.2 ≤ countOf slot.counts member.1) = true
    · rw [if_pos hall]
      refine ⟨rfl, rfl, fun other => ?_, fun other => ?_⟩
      · simp [hcomplete.mp hall]
      · simp [hmem, hcomplete.mp hall]
    · rw [if_neg hall]
      have hnot : ¬ Complete chain calls := fun h => hall (hcomplete.mpr h)
      refine ⟨rfl, rfl, fun other => ?_, fun other => ?_⟩
      · simp [hnot]
      · simp [hnot]

/-- One call: the slot follows, and the finding is what the call made complete. -/
theorem PidBehavior.Follows.observe {slot : PidBehavior} {calls : List UInt32} (h : slot.Follows calls)
    (api : UInt32) (hroom : calls.count api + 1 < 4294967296) :
    (slot.observe api).2.Follows (calls ++ [api]) ∧
      ((slot.observe api).1.runKeySet = true ↔
        api = BehaviorApi.ntSetValueKeyRunKey ∧ BehaviorApi.ntSetValueKeyRunKey ∉ calls) ∧
      ∀ chain, chain ∈ (slot.observe api).1.chains ↔
        Complete chain (calls ++ [api]) ∧ ¬ Complete chain calls := by
  have hbumped : ∀ other, (countOf (bump slot.counts api) other).toNat = (calls ++ [api]).count other := by
    intro other
    rw [countOf_bump, List.count_append, List.count_singleton]
    by_cases hsame : other = api
    · subst hsame
      have hcount := h.counts other
      simp only [if_true, beq_self_eq_true]
      rw [UInt32.toNat_add, UInt32.toNat_one]
      omega
    · rw [if_neg hsame, h.counts]
      simp [Ne.symm hsame]
  have hrun : (api == BehaviorApi.ntSetValueKeyRunKey && !slot.runKeySeen) = true ↔
      api = BehaviorApi.ntSetValueKeyRunKey ∧ BehaviorApi.ntSetValueKeyRunKey ∉ calls := by
    rw [Bool.and_eq_true_iff, beq_iff_eq, Bool.not_eq_true', ← Bool.not_eq_true, h.runKeySeen]
  have hmono (chain : ChainId) (hcomplete : Complete chain calls) : Complete chain (calls ++ [api]) :=
    hcomplete.mono (List.sublist_append_left _ _)
  obtain ⟨bumped, hbump⟩ : ∃ bumped : PidBehavior, bumped = { slot with
      runKeySeen := slot.runKeySeen || (api == BehaviorApi.ntSetValueKeyRunKey && !slot.runKeySeen)
      counts := bump slot.counts api } := ⟨_, rfl⟩
  have hbumpedCounts (other : UInt32) : (countOf bumped.counts other).toNat = (calls ++ [api]).count other := by
    rw [hbump]
    exact hbumped other
  obtain ⟨hcounts, hrunKey, hfired, hnew⟩ := bumped.tryFire_spec [] .injection hbumpedCounts
  obtain ⟨hcounts', hrunKey', hfired', hnew'⟩ :=
    (bumped.tryFire [] .injection).1.tryFire_spec (bumped.tryFire [] .injection).2 .ransomware
      (fun other => hcounts ▸ hbumpedCounts other)
  have hobserve : slot.observe api =
      (⟨((bumped.tryFire [] .injection).1.tryFire (bumped.tryFire [] .injection).2 .ransomware).2,
          api == BehaviorApi.ntSetValueKeyRunKey && !slot.runKeySeen⟩,
        ((bumped.tryFire [] .injection).1.tryFire (bumped.tryFire [] .injection).2 .ransomware).1) := by
    rw [hbump]
    rfl
  rw [hobserve]
  have hslotFired : bumped.fired = slot.fired := by rw [hbump]
  refine ⟨⟨fun other => ?_, fun chain => ?_, ?_⟩, hrun, fun chain => ?_⟩
  · show (countOf (PidBehavior.tryFire _ _ _).1.counts other).toNat = _
    rw [hcounts', hcounts, hbumpedCounts]
  · rw [hfired', hfired, hslotFired, h.fired]
    have hkept := hmono chain
    cases chain <;> simp <;> tauto
  · show (PidBehavior.tryFire _ _ _).1.runKeySeen = true ↔ _
    rw [hrunKey', hrunKey, hbump, Bool.or_eq_true, hrun, h.runKeySeen, List.mem_append, List.mem_singleton]
    tauto
  · rw [hnew', hnew, hfired, hslotFired, h.fired, h.fired]
    cases chain <;> simp <;> tauto

def ChainDetector.slot (detector : ChainDetector) (pid : UInt32) : PidBehavior :=
  (detector.perPid.lookup pid).getD .empty

structure ChainDetector.Follows (detector : ChainDetector) (history : List AgentBusEvent) : Prop where
  pids : detector.perPid.map (·.1) = trackedPids history
  slots : ∀ pid, (detector.slot pid).Follows (callsSince pid history)

theorem ChainDetector.initial_follows : ChainDetector.Follows ⟨[], 0⟩ [] :=
  ⟨rfl, fun _ => PidBehavior.empty_follows⟩

/-- With room for its pid, a call goes to the pid's slot. -/
theorem ChainDetector.Follows.observe_eq {detector : ChainDetector} {history : List AgentBusEvent}
    (h : detector.Follows history) (pid api : UInt32)
    (hroom : (trackedPids (history ++ [.behaviorObserved pid api])).length ≤ maxTrackedPids) :
    (detector.observe pid api).1 = ((detector.slot pid).observe api).1 ∧
      (detector.observe pid api).2.perPid =
        upsert pid (fun _ => ((detector.slot pid).observe api).2) detector.perPid := by
  unfold ChainDetector.observe ChainDetector.slotFor ChainDetector.slot
  cases hlookup : detector.perPid.lookup pid with
  | some slot => exact ⟨rfl, rfl⟩
  | none =>
    have hnew : pid ∉ detector.perPid.map (·.1) := by simp [mem_keys_iff, hlookup]
    have hlength : ¬ maxTrackedPids ≤ detector.perPid.length := by
      rw [trackedPids_concat, trackStep, ← h.pids, if_neg hnew, List.length_append, List.length_map,
        List.length_singleton] at hroom
      omega
    simp only [if_neg hlength, Option.getD_none]
    exact ⟨trivial, upsert_pushed hnew _ _⟩

theorem ChainDetector.Follows.called {detector : ChainDetector} {history : List AgentBusEvent}
    (h : detector.Follows history) (pid api : UInt32)
    (hroom : (trackedPids (history ++ [.behaviorObserved pid api])).length ≤ maxTrackedPids)
    (hcalls : (callsSince pid history).count api + 1 < 4294967296) :
    (detector.observe pid api).2.Follows (history ++ [.behaviorObserved pid api]) := by
  obtain ⟨_, hperPid⟩ := h.observe_eq pid api hroom
  refine ⟨?_, fun other => ?_⟩
  · rw [hperPid, keys_upsert, trackedPids_concat, trackStep, h.pids]
  · rw [ChainDetector.slot, hperPid, lookup_upsert, callsSince_concat, callsStep]
    by_cases hother : other = pid
    · subst hother
      rw [if_pos rfl, if_pos rfl, Option.getD_some]
      exact ((h.slots other).observe api hcalls).1
    · rw [if_neg hother, if_neg (Ne.symm hother)]
      exact h.slots other

theorem ChainDetector.Follows.exited {detector : ChainDetector} {history : List AgentBusEvent}
    (h : detector.Follows history) (pid : UInt32) (name : String) :
    (detector.forget pid).Follows (history ++ [.processExitedScope pid name]) := by
  refine ⟨?_, fun other => ?_⟩
  · rw [ChainDetector.forget, keys_erase, h.pids, trackedPids_concat, trackStep]
  · rw [ChainDetector.slot, ChainDetector.forget, lookup_erase, callsSince_concat, callsStep]
    by_cases hother : other = pid
    · rw [if_pos hother, if_pos hother.symm, Option.getD_none]
      exact PidBehavior.empty_follows
    · rw [if_neg hother, if_neg (Ne.symm hother)]
      exact h.slots other

/-- No call and no exit. -/
def AgentBusEvent.quiet : AgentBusEvent → Bool
  | .behaviorObserved _ _ | .processExitedScope _ _ => false
  | _ => true

theorem callsStep_quiet {event : AgentBusEvent} (h : event.quiet = true) (pid : UInt32) (calls : List UInt32) :
    callsStep pid calls event = calls := by
  cases event <;> simp_all [callsStep, AgentBusEvent.quiet]

theorem ChainDetector.Follows.quiet {detector : ChainDetector} {history : List AgentBusEvent}
    (h : detector.Follows history) {event : AgentBusEvent} (hquiet : event.quiet = true) :
    detector.Follows (history ++ [event]) := by
  refine ⟨?_, fun pid => ?_⟩
  · rw [trackedPids_concat, h.pids]
    cases event <;> simp_all [trackStep, AgentBusEvent.quiet]
  · rw [callsSince_concat, callsStep_quiet hquiet]
    exact h.slots pid

/-! ## The score -/

section
variable {weights : ScoreWeights}

theorem Earned.mono {history : List AgentBusEvent} {weight : UInt32} (h : Earned weights history weight)
    (event : AgentBusEvent) : Earned weights (history ++ [event]) weight := by
  cases h with
  | cliStarted pid name hentered hcli => exact .cliStarted pid name (List.mem_append_left _ hentered) hcli
  | dropObserved path pid hobserved => exact .dropObserved path pid (List.mem_append_left _ hobserved)
  | runKeySet pid hcalled => exact .runKeySet pid (List.mem_append_left _ hcalled)
  | chain chain pid before stretch after hsplit hstays hmembers =>
    exact .chain chain pid before stretch (after ++ [event]) (by simp [hsplit]) hstays hmembers

theorem Earned.of_complete {front rest : List AgentBusEvent} {chain : ChainId} {pid : UInt32}
    (h : Complete chain (callsSince pid front)) : Earned weights (front ++ rest) (chain.weight weights) := by
  obtain ⟨before, stretch, after, hsplit, hstays, hmembers⟩ :=
    (earned_chain_iff (front ++ rest) chain pid).mpr ⟨front, rest, rfl, h⟩
  exact .chain chain pid before stretch after hsplit hstays hmembers

/-- What the last event adds. -/
theorem Earned.of_concat {history : List AgentBusEvent} {event : AgentBusEvent} {weight : UInt32}
    (h : Earned weights (history ++ [event]) weight) :
    Earned weights history weight ∨
      (∃ pid name, event = .processEnteredScope pid name ∧ isCliInterpreter name = true ∧
        weight = weights.cliStarted) ∨
      (∃ path pid, event = .dropObserved path pid ∧ weight = weights.dropObserved) ∨
      ∃ pid api, event = .behaviorObserved pid api ∧
        (api = BehaviorApi.ntSetValueKeyRunKey ∧ weight = weights.runKeySet ∨
          ∃ chain, Complete chain (callsSince pid (history ++ [event])) ∧ weight = chain.weight weights) := by
  cases h with
  | cliStarted pid name hentered hcli =>
    obtain hold | hnew := List.mem_append.mp hentered
    · exact .inl (.cliStarted pid name hold hcli)
    · exact .inr (.inl ⟨pid, name, (List.mem_singleton.mp hnew).symm, hcli, rfl⟩)
  | dropObserved path pid hobserved =>
    obtain hold | hnew := List.mem_append.mp hobserved
    · exact .inl (.dropObserved path pid hold)
    · exact .inr (.inr (.inl ⟨path, pid, (List.mem_singleton.mp hnew).symm, rfl⟩))
  | runKeySet pid hcalled =>
    obtain hold | hnew := List.mem_append.mp hcalled
    · exact .inl (.runKeySet pid hold)
    · exact .inr (.inr (.inr ⟨pid, _, (List.mem_singleton.mp hnew).symm, .inl ⟨rfl, rfl⟩⟩))
  | chain chain pid before stretch after hsplit hstays hmembers =>
    obtain ⟨front, rest, hfront, hcomplete⟩ :=
      (earned_chain_iff _ chain pid).mp ⟨before, stretch, after, hsplit, hstays, hmembers⟩
    have hold (hcomplete : Complete chain (callsSince pid history)) : Earned weights history (chain.weight weights) :=
      List.append_nil history ▸ .of_complete hcomplete
    rcases rest.eq_nil_or_concat with rfl | ⟨rest, last, rfl⟩
    · rw [List.append_nil] at hfront
      subst hfront
      -- complete just now: by a call of its own, or before
      have hcalls := callsSince_concat pid history event
      cases event with
      | behaviorObserved caller api =>
        by_cases hcaller : caller = pid
        · subst hcaller
          exact .inr (.inr (.inr ⟨caller, api, rfl, .inr ⟨chain, hcomplete, rfl⟩⟩))
        · rw [hcalls, callsStep, if_neg hcaller] at hcomplete
          exact .inl (hold hcomplete)
      | processExitedScope exited name =>
        rw [hcalls, callsStep] at hcomplete
        split at hcomplete
        · exact absurd hcomplete (not_complete_nil chain)
        · exact .inl (hold hcomplete)
      | _ =>
        rw [hcalls, callsStep_quiet rfl] at hcomplete
        exact .inl (hold hcomplete)
    · rw [List.concat_eq_append, ← List.append_assoc] at hfront
      obtain ⟨rfl, _⟩ := List.append_inj' hfront rfl
      exact .inl (.of_complete hcomplete)

theorem called_of_mem_callsSince {pid api : UInt32} {history : List AgentBusEvent}
    (h : api ∈ callsSince pid history) : .behaviorObserved pid api ∈ history := by
  obtain ⟨before, stretch, rfl, hstays, hnone⟩ := callsSince_stretch pid history
  obtain ⟨calls, hcalls, hcount⟩ := callsSince_append before hstays
  rw [hcalls, hnone, List.nil_append, ← List.count_pos_iff, hcount, List.count_pos_iff] at h
  exact List.mem_append_right _ h

instance lawfulOrderMaxUInt32 : Std.LawfulOrderMax UInt32 where
  max_eq_or a b := by
    show (if a ≤ b then b else a) = a ∨ (if a ≤ b then b else a) = b
    split
    · exact .inr rfl
    · exact .inl rfl
  max_le_iff a b c := by
    show (if a ≤ b then b else a) ≤ c ↔ a ≤ c ∧ b ≤ c
    split <;> grind

section
variable {detector : ChainDetector} {history : List AgentBusEvent} {pid api : UInt32}

theorem ChainDetector.Follows.call_eq (h : detector.Follows history)
    (hroom : (trackedPids (history ++ [.behaviorObserved pid api])).length ≤ maxTrackedPids) :
    (scoringCandidate weights detector (.behaviorObserved pid api)).1 =
      if ((detector.slot pid).observe api).1.runKeySet then some weights.runKeySet
      else (((detector.slot pid).observe api).1.chains.map (·.weight weights)).max? := by
  obtain ⟨hfinding, _⟩ := h.observe_eq pid api hroom
  rw [← hfinding]
  rfl

theorem callsSince_call (pid api : UInt32) (history : List AgentBusEvent) :
    callsSince pid (history ++ [.behaviorObserved pid api]) = callsSince pid history ++ [api] := by
  rw [callsSince_concat, callsStep, if_pos rfl]

/-- What a call scores is earned with it. -/
theorem ChainDetector.Follows.call_earned (h : detector.Follows history)
    (hroom : (trackedPids (history ++ [.behaviorObserved pid api])).length ≤ maxTrackedPids)
    (hcalls : (callsSince pid history).count api + 1 < 4294967296) {candidate : UInt32}
    (hmem : candidate ∈ (scoringCandidate weights detector (.behaviorObserved pid api)).1) :
    Earned weights (history ++ [.behaviorObserved pid api]) candidate := by
  obtain ⟨_, hrunKey, hchains⟩ := (h.slots pid).observe api hcalls
  rw [h.call_eq hroom] at hmem
  split at hmem
  · rename_i hset
    cases Option.some.inj hmem
    exact .runKeySet pid ((hrunKey.mp hset).1 ▸ List.mem_append_right _ (List.mem_singleton.mpr rfl))
  · obtain ⟨chain, hchain, rfl⟩ := List.mem_map.mp (List.max?_mem hmem)
    have hcomplete := ((hchains chain).mp hchain).1
    exact List.append_nil (history ++ [_]) ▸ .of_complete (callsSince_call pid api history ▸ hcomplete)

/-- What is earned with a call was earned before, or is no more than what the call scores. -/
theorem ChainDetector.Follows.call_covers (h : detector.Follows history)
    (hroom : (trackedPids (history ++ [.behaviorObserved pid api])).length ≤ maxTrackedPids)
    (hcalls : (callsSince pid history).count api + 1 < 4294967296) {weight : UInt32}
    (hnew : api = BehaviorApi.ntSetValueKeyRunKey ∧ weight = weights.runKeySet ∨
      ∃ chain, Complete chain (callsSince pid (history ++ [.behaviorObserved pid api])) ∧
        weight = chain.weight weights) :
    Earned weights history weight ∨
      ∃ candidate ∈ (scoringCandidate weights detector (.behaviorObserved pid api)).1, weight ≤ candidate := by
  obtain ⟨_, hrunKey, hchains⟩ := (h.slots pid).observe api hcalls
  have hold {chain : ChainId} (hcomplete : Complete chain (callsSince pid history)) :
      Earned weights history (chain.weight weights) := List.append_nil history ▸ .of_complete hcomplete
  rw [h.call_eq hroom]
  rw [callsSince_call] at hnew
  by_cases hset : ((detector.slot pid).observe api).1.runKeySet = true
  · -- the call of the run key completes no chain
    rw [if_pos hset]
    obtain ⟨_, rfl⟩ | ⟨chain, hcomplete, rfl⟩ := hnew
    · exact .inr ⟨_, rfl, UInt32.le_refl _⟩
    · rw [(hrunKey.mp hset).1] at hcomplete
      exact .inl (hold hcomplete.of_runKey)
  · rw [if_neg hset]
    obtain ⟨hapi, rfl⟩ | ⟨chain, hcomplete, rfl⟩ := hnew
    · have hseen : BehaviorApi.ntSetValueKeyRunKey ∈ callsSince pid history := by
        by_contra hunseen
        exact hset (hrunKey.mpr ⟨hapi, hunseen⟩)
      exact .inl (.runKeySet pid (called_of_mem_callsSince hseen))
    · by_cases hearlier : Complete chain (callsSince pid history)
      · exact .inl (hold hearlier)
      · have hmem : chain.weight weights ∈ ((detector.slot pid).observe api).1.chains.map (·.weight weights) :=
          List.mem_map_of_mem ((hchains chain).mpr ⟨hcomplete, hearlier⟩)
        cases hmax : (((detector.slot pid).observe api).1.chains.map (·.weight weights)).max? with
        | none => simp [List.max?_eq_none_iff.mp hmax] at hmem
        | some greatest => exact .inr ⟨greatest, rfl, (List.max?_eq_some_iff.mp hmax).2 _ hmem⟩

end

/-- The candidate of an event covers what the event earns, and is earned. -/
theorem ChainDetector.Follows.candidate {detector : ChainDetector} {history : List AgentBusEvent}
    (h : detector.Follows history) (event : AgentBusEvent)
    (hroom : (trackedPids (history ++ [event])).length ≤ maxTrackedPids)
    (hcalls : ∀ pid api, event = .behaviorObserved pid api → (callsSince pid history).count api + 1 < 4294967296) :
    (scoringCandidate weights detector event).2.Follows (history ++ [event]) ∧
      (∀ candidate ∈ (scoringCandidate weights detector event).1,
        Earned weights (history ++ [event]) candidate) ∧
      ∀ weight, Earned weights (history ++ [event]) weight → Earned weights history weight ∨
        ∃ candidate ∈ (scoringCandidate weights detector event).1, weight ≤ candidate := by
  have hself : event ∈ history ++ [event] := List.mem_append_right _ (List.mem_singleton.mpr rfl)
  cases event with
  | processEnteredScope pid name =>
    refine ⟨h.quiet rfl, fun candidate hcandidate => ?_, fun weight hearned => ?_⟩
    · rw [scoringCandidate, scoreSignal, Option.mem_def, Option.ite_none_right_eq_some] at hcandidate
      obtain ⟨hcli, hweight⟩ := hcandidate
      exact Option.some.inj hweight ▸ .cliStarted pid name hself hcli
    · obtain hold | ⟨_, _, heq, hcli, rfl⟩ | ⟨_, _, heq, _⟩ | ⟨_, _, heq, _⟩ := hearned.of_concat
      · exact .inl hold
      · cases heq
        exact .inr ⟨weights.cliStarted, by simp [scoringCandidate, scoreSignal, hcli], UInt32.le_refl _⟩
      · cases heq
      · cases heq
  | dropObserved path pid =>
    refine ⟨h.quiet rfl, fun candidate hcandidate => ?_, fun weight hearned => ?_⟩
    · exact Option.some.inj hcandidate ▸ .dropObserved path pid hself
    · obtain hold | ⟨_, _, heq, _, _⟩ | ⟨_, _, heq, rfl⟩ | ⟨_, _, heq, _⟩ := hearned.of_concat
      · exact .inl hold
      · cases heq
      · exact .inr ⟨_, rfl, UInt32.le_refl _⟩
      · cases heq
  | behaviorObserved pid api =>
    have hcount := hcalls pid api rfl
    refine ⟨h.called pid api hroom hcount, fun _ hmem => h.call_earned hroom hcount hmem, fun weight hearned => ?_⟩
    obtain hold | ⟨_, _, heq, _⟩ | ⟨_, _, heq, _⟩ | ⟨_, _, heq, hnew⟩ := hearned.of_concat
    · exact .inl hold
    · cases heq
    · cases heq
    · cases heq
      exact h.call_covers hroom hcount hnew
  | processExitedScope pid name =>
    refine ⟨h.exited pid name, fun _ hmem => (nomatch hmem), fun weight hearned => ?_⟩
    obtain hold | ⟨_, _, heq, _⟩ | ⟨_, _, heq, _⟩ | ⟨_, _, heq, _⟩ := hearned.of_concat
    · exact .inl hold
    all_goals cases heq
  | _ =>
    refine ⟨h.quiet rfl, fun _ hmem => (nomatch hmem), fun weight hearned => ?_⟩
    obtain hold | ⟨_, _, heq, _⟩ | ⟨_, _, heq, _⟩ | ⟨_, _, heq, _⟩ := hearned.of_concat
    · exact .inl hold
    all_goals cases heq

/-- The score and the raises agree with the history. -/
structure Scoring.Follows (weights : ScoreWeights) (scoring : Scoring) (history : List AgentBusEvent) : Prop where
  detector : scoring.detector.Follows history
  greatest : IsGreatest (insert 0 {weight | Earned weights history weight}) scoring.maxScore
  increasing : scoring.raised.Pairwise (· < ·)
  bounded : ∀ score ∈ scoring.raised, score ≤ scoring.maxScore
  last : scoring.raised.getLastD 0 = scoring.maxScore

theorem not_earned_nil (weight : UInt32) : ¬ Earned weights [] weight := by
  intro h
  cases h with
  | cliStarted pid name hentered _ => simp at hentered
  | dropObserved path pid hobserved => simp at hobserved
  | runKeySet pid hcalled => simp at hcalled
  | chain chain pid before stretch after hsplit hstays hmembers =>
    obtain ⟨front, rest, hsplit, hcomplete⟩ :=
      (earned_chain_iff [] chain pid).mp ⟨before, stretch, after, hsplit, hstays, hmembers⟩
    obtain ⟨rfl, rfl⟩ := List.append_eq_nil_iff.mp hsplit.symm
    exact not_complete_nil chain hcomplete

theorem Scoring.initial_follows : Scoring.initial.Follows weights [] := by
  refine ⟨ChainDetector.initial_follows, ⟨Set.mem_insert _ _, fun weight hweight => ?_⟩, .nil, by simp [Scoring.initial], rfl⟩
  obtain rfl | hearned := hweight
  · exact UInt32.le_refl _
  · exact absurd hearned (not_earned_nil weight)

theorem Scoring.Follows.recv {scoring : Scoring} {history : List AgentBusEvent} (h : scoring.Follows weights history)
    (event : AgentBusEvent) (hroom : (trackedPids (history ++ [event])).length ≤ maxTrackedPids)
    (hcalls : ∀ pid api, event = .behaviorObserved pid api → (callsSince pid history).count api + 1 < 4294967296) :
    (scoring.recv weights event).Follows weights (history ++ [event]) := by
  obtain ⟨hdetector, hearned, hcovered⟩ := @ChainDetector.Follows.candidate weights _ _ h.detector event hroom hcalls
  obtain ⟨hmax, hupper⟩ := h.greatest
  have hmono : scoring.maxScore ∈ insert 0 {weight | Earned weights (history ++ [event]) weight} :=
    hmax.imp id fun hold => hold.mono event
  unfold Scoring.recv
  generalize scoringCandidate weights scoring.detector event = result at hdetector hearned hcovered
  obtain ⟨candidate, detector⟩ := result
  cases candidate with
  | none =>
    refine ⟨hdetector, ⟨hmono, fun weight hweight => ?_⟩, h.increasing, h.bounded, h.last⟩
    obtain rfl | hnew := hweight
    · exact hupper (Set.mem_insert _ _)
    · obtain hold | ⟨_, hmem, _⟩ := hcovered weight hnew
      · exact hupper (Set.mem_insert_of_mem _ hold)
      · simp at hmem
  | some candidate =>
    have hnewEarned := hearned candidate rfl
    have hgreatest : IsGreatest (insert 0 {weight | Earned weights (history ++ [event]) weight})
        (max scoring.maxScore candidate) := by
      refine ⟨?_, fun weight hweight => ?_⟩
      · obtain hfirst | hsecond := Std.MaxEqOr.max_eq_or scoring.maxScore candidate
        · rw [hfirst]
          exact hmono
        · rw [hsecond]
          exact .inr hnewEarned
      · obtain rfl | hnew := hweight
        · exact Std.le_trans (hupper (Set.mem_insert _ _)) Std.left_le_max
        · obtain hold | ⟨_, hmem, hle⟩ := hcovered weight hnew
          · exact Std.le_trans (hupper (Set.mem_insert_of_mem _ hold)) Std.left_le_max
          · cases Option.some.inj hmem
            exact Std.le_trans hle Std.right_le_max
    refine ⟨hdetector, hgreatest, ?_, ?_, ?_⟩
    · dsimp only
      split
      · rename_i hraise
        refine List.pairwise_append.mpr ⟨h.increasing, List.pairwise_singleton _ _, fun score hscore last hlast => ?_⟩
        cases List.mem_singleton.mp hlast
        exact Std.lt_of_le_of_lt (h.bounded score hscore) hraise
      · exact h.increasing
    · intro score hscore
      dsimp only at hscore
      split at hscore
      · obtain hold | hnew := List.mem_append.mp hscore
        · exact Std.le_trans (h.bounded score hold) Std.left_le_max
        · cases List.mem_singleton.mp hnew
          exact Std.right_le_max
      · exact Std.le_trans (h.bounded score hscore) Std.left_le_max
    · dsimp only
      split
      · rename_i hraise
        have hle : scoring.maxScore ≤ candidate := Std.le_of_lt hraise
        rw [List.getLastD_concat]
        show candidate = if scoring.maxScore ≤ candidate then candidate else scoring.maxScore
        rw [if_pos hle]
      · rename_i hkeep
        rw [h.last]
        show scoring.maxScore = if scoring.maxScore ≤ candidate then candidate else scoring.maxScore
        split
        · exact Std.le_antisymm (by assumption) (UInt32.not_lt.mp hkeep)
        · rfl

end

/-- The session's score is the greatest weight its history earned, and the raises published climb to it. -/
theorem score_meaning (weights : ScoreWeights) (history : List AgentBusEvent)
    (hroom : ∀ before after, history = before ++ after → (trackedPids before).length ≤ maxTrackedPids)
    (hcalls : ∀ pid api, history.count (.behaviorObserved pid api) < 4294967296) :
    IsGreatest (insert 0 {weight | Earned weights history weight})
        (history.foldl (Scoring.recv weights) .initial).maxScore ∧
      (history.foldl (Scoring.recv weights) .initial).raised.Pairwise (· < ·) ∧
      (history.foldl (Scoring.recv weights) .initial).raised.getLastD 0 =
        (history.foldl (Scoring.recv weights) .initial).maxScore := by
  suffices hfollows : (history.foldl (Scoring.recv weights) .initial).Follows weights history from
    ⟨hfollows.greatest, hfollows.increasing, hfollows.last⟩
  induction history using List.reverseRecOn with
  | nil => exact Scoring.initial_follows
  | append_singleton history event ih =>
    rw [List.foldl_append, List.foldl_cons, List.foldl_nil]
    have hfollows := ih (fun before after hsplit => hroom before (after ++ [event]) (by simp [hsplit]))
      fun pid api => Nat.lt_of_le_of_lt ((List.sublist_append_left history [event]).count_le _) (hcalls pid api)
    refine hfollows.recv event (hroom _ [] (by simp)) fun pid api hevent => ?_
    subst hevent
    have hcount := hcalls pid api
    rw [List.count_append, List.count_singleton, if_pos (beq_self_eq_true _)] at hcount
    obtain ⟨before, stretch, rfl, hstays, hnone⟩ := callsSince_stretch pid history
    obtain ⟨calls, hcallsSince, hsame⟩ := callsSince_append before hstays
    rw [hcallsSince, hnone, List.nil_append, hsame]
    rw [List.count_append] at hcount
    omega

theorem trackedPids_length_le (history : List AgentBusEvent) : (trackedPids history).length ≤ history.length := by
  induction history using List.reverseRecOn with
  | nil => exact Nat.le_refl _
  | append_singleton history event ih =>
    rw [trackedPids_concat, List.length_append, List.length_singleton]
    cases event with
    | behaviorObserved pid api =>
      rw [trackStep]
      split
      · omega
      · rw [List.length_append, List.length_singleton]
        omega
    | processExitedScope pid name =>
      have hfilter := List.length_filter_le (· != pid) (trackedPids history)
      rw [trackStep]
      omega
    | _ => exact Nat.le_succ_of_le ih

/-- An interpreter that injects. -/
theorem injection_score :
    IsGreatest (insert 0 {weight | Earned ⟨4, 5, 3, 20, 40⟩
        [.processEnteredScope 7 "cmd.exe", .behaviorObserved 7 9, .behaviorObserved 7 4] weight}) 20 :=
  (score_meaning ⟨4, 5, 3, 20, 40⟩
    [.processEnteredScope 7 "cmd.exe", .behaviorObserved 7 9, .behaviorObserved 7 4]
    (fun before after hsplit => by
      have hlength := congrArg List.length hsplit
      rw [List.length_append] at hlength
      have htracked := trackedPids_length_le before
      simp only [List.length_cons, List.length_nil, maxTrackedPids] at hlength ⊢
      omega)
    (fun _ _ => Nat.lt_of_le_of_lt List.count_le_length (by decide))).1

end SecOutfall.Agent
