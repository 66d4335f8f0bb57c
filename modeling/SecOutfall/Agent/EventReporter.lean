import Mathlib.Data.List.Forall2
import Mathlib.Logic.Function.Basic
import SecOutfall.Agent.Pipeline
import SecOutfall.Agent.SessionClock
import SecOutfall.Agent.SourceEnvelope
import SecOutfall.Foundations.Broadcast
import SecOutfall.Foundations.Runs

/-! `EventReporterPlugin` of `plugins/event_reporter.rs`: source telemetry from the pipeline and derived events
from the bus, both onto the wire.

Every event source runs the pipeline on a task of its own, and the consumer of the bus is another one. They
share the counter of `next_seq` and the scope state, so between its reads and its hand-over to the broker each
of them is overtaken by the others. -/
namespace SecOutfall.Reporter
open Broadcast Protocol Runs SourceWire
open Agent (AgentBusEvent)
open Agent.Clock (EventVerbosity)
set_option autoImplicit false

/-! ## Events -/

/-- `other` stands for the events that carry no telemetry. -/
inductive SandboxEvent where
  | source (source : SourceEvent)
  | sourceDated (source : SourceEvent) (eventTs : Int64)
  | other

/-- The task of an event source, or the consumer of the bus. -/
inductive Publisher where
  | task (id : ℕ)
  | consumer
  deriving DecidableEq, Repr

inductive Content where
  | source (event : SourceEvent) (eventTs : Option Int64)
  | derived (eventType : EventType) (payload : Payload)

/-- What `pre` puts on the wire. -/
def reported (verbosity : EventVerbosity) (event : SandboxEvent) : Option Content :=
  if verbosity ≠ .full then none
  else
    match event with
    | .source source => some (.source source none)
    | .sourceDated source eventTs => some (.source source (some eventTs))
    | .other => none

/-- What `publish_bus_event` puts on the wire. -/
def derived : AgentBusEvent → Option Content
  | .dropObserved path pid => some (.derived .dropObserved ⟨.dropObserved, (path, pid, ())⟩)
  | .dropClosed path => some (.derived .dropClosed ⟨.dropClosed, (path, ())⟩)
  | .scopeDied => some (.derived .scopeDied ⟨.scopeDied, ()⟩)
  | .targetLaunched _ | .extendScopeExpectation _ | .sessionScoreRaised _ | .processEnteredScope _ _
  | .processExitedScope _ _ | .behaviorObserved _ _ => none

section
variable {Uuid : Type}

def Content.envelope (now : Int64) (seq : UInt64) (studyId : Uuid) (sessionId : UInt32) :
    Content → Envelope Uuid Payload
  | .source event eventTs =>
    let envelope := envelopeFromSource now seq studyId sessionId event
    match eventTs with
    | some eventTs => { envelope with ts := eventTs }
    | none => envelope
  | .derived eventType payload => envelopeRaw now seq studyId sessionId eventType payload

/-! ## The plugin -/

/-- A publisher that read the identity, and one that awaits the broker. -/
inductive Stage (Uuid : Type) where
  | begun (content : Content) (sessionId : UInt32)
  | sending (envelope : Envelope Uuid Payload)

/-- `handed` holds what the broker answered for, with the answer; `accepted` and `history` what came in. -/
structure Reporting (Uuid : Type) where
  verbosity : EventVerbosity
  studyId : Uuid
  currentSession : Option UInt32
  seq : UInt64
  taken : ℕ
  bus : Channel AgentBusEvent
  next : ℕ
  consuming : Bool
  cancelled : Bool
  staged : Publisher → Option (Stage Uuid)
  handed : List (Publisher × Envelope Uuid Payload × Bool)
  accepted : List (ℕ × SandboxEvent)
  history : List (Received AgentBusEvent)

/-- After `start`. -/
def Reporting.start (verbosity : EventVerbosity) (studyId : Uuid) (currentSession : Option UInt32)
    (bus : Channel AgentBusEvent) : Reporting Uuid where
  verbosity := verbosity
  studyId := studyId
  currentSession := currentSession
  seq := 0
  taken := 0
  bus := bus
  next := bus.subscribe
  consuming := true
  cancelled := false
  staged := fun _ => none
  handed := []
  accepted := []
  history := []

inductive ReporterOp where
  | pre (task : ℕ) (event : SandboxEvent)
  -- the consumer's loop turns
  | recv
  -- the clock and `next_seq`
  | number (publisher : Publisher) (now : Int64)
  -- the broker's answer
  | answer (publisher : Publisher) (ok : Bool)
  | stop
  -- the other plugins
  | publish (event : AgentBusEvent)
  | nextSeq
  | session (id : Option UInt32)

def Reporting.sessionId (s : Reporting Uuid) : UInt32 := s.currentSession.getD 0

def Reporting.begin (s : Reporting Uuid) (publisher : Publisher) (content : Option Content) :
    Publisher → Option (Stage Uuid) :=
  match content with
  | some content => Function.update s.staged publisher (some (.begun content s.sessionId))
  | none => s.staged

def reporterStep (s : Reporting Uuid) : ReporterOp → Reporting Uuid
  | .pre task event =>
    match s.staged (.task task) with
    | some _ => s
    | none =>
      { s with
        accepted := s.accepted ++ [(task, event)]
        staged := s.begin (.task task) (reported s.verbosity event) }
  | .recv =>
    match s.staged .consumer with
    | some _ => s
    | none =>
      if s.consuming then
        -- biased: shutdown wins over pending events
        if s.cancelled then { s with consuming := false }
        else
          match s.bus.recv s.next with
          | (.value event, next) =>
            { s with next, history := s.history ++ [.value event], staged := s.begin .consumer (derived event) }
          | (answer, next) => { s with next, history := s.history ++ [answer] }
      else s
  | .number publisher now =>
    match s.staged publisher with
    | some (.begun content sessionId) =>
      { s with
        seq := s.seq + 1
        taken := s.taken + 1
        staged := Function.update s.staged publisher
          (some (.sending (content.envelope now s.seq s.studyId sessionId))) }
    | _ => s
  | .answer publisher ok =>
    match s.staged publisher with
    | some (.sending envelope) =>
      { s with
        staged := Function.update s.staged publisher none
        handed := s.handed ++ [(publisher, envelope, ok)] }
    | _ => s
  | .stop => { s with cancelled := true }
  | .publish event => { s with bus := s.bus.send event }
  | .nextSeq => { s with seq := s.seq + 1, taken := s.taken + 1 }
  | .session id => { s with currentSession := id }

/-! ## What went through each publisher -/

def Stage.content : Stage Uuid → Option Content
  | .begun content _ => some content
  | .sending _ => none

def Stage.envelope : Stage Uuid → Option (Envelope Uuid Payload)
  | .begun _ _ => none
  | .sending envelope => some envelope

namespace Reporting

/-- What came in for a publisher to report. -/
def contents (s : Reporting Uuid) : Publisher → List Content
  | .task id => s.accepted.filterMap fun entry => if entry.1 = id then reported s.verbosity entry.2 else none
  | .consumer => (values s.history).filterMap derived

def begun (s : Reporting Uuid) (publisher : Publisher) : Option Content := (s.staged publisher).bind Stage.content

/-- What it gave a number, the one the broker has not answered for at the end. -/
def envelopes (s : Reporting Uuid) (publisher : Publisher) : List (Envelope Uuid Payload) :=
  (s.handed.filterMap fun entry => if entry.1 = publisher then some entry.2.1 else none) ++
    ((s.staged publisher).bind Stage.envelope).toList

end Reporting

/-- The envelope of a content, under the study's id, at some time and in some session. -/
def Carries (studyId : Uuid) (content : Content) (envelope : Envelope Uuid Payload) : Prop :=
  ∃ now sessionId, envelope = content.envelope now envelope.seq studyId sessionId

/-! ## One step -/

/-- A publisher's share. -/
@[ext]
structure Row (Uuid : Type) where
  contents : List Content
  begun : Option Content
  envelopes : List (Envelope Uuid Payload)

def Reporting.row (s : Reporting Uuid) (publisher : Publisher) : Row Uuid :=
  ⟨s.contents publisher, s.begun publisher, s.envelopes publisher⟩

/-- What a step does to the shares and to the counter. -/
inductive Effect (s s' : Reporting Uuid) : Prop where
  | quiet (row : s'.row = s.row) (seq : s'.seq = s.seq) (taken : s'.taken = s.taken)
  | taken (row : s'.row = s.row) (seq : s'.seq = s.seq + 1) (taken : s'.taken = s.taken + 1)
  | begun (publisher : Publisher) (content : Content) (free : (s.row publisher).begun = none)
      (row : s'.row = Function.update s.row publisher
        { s.row publisher with contents := s.contents publisher ++ [content], begun := some content })
      (seq : s'.seq = s.seq) (taken : s'.taken = s.taken)
  | numbered (publisher : Publisher) (content : Content) (now : Int64) (sessionId : UInt32)
      (begun : (s.row publisher).begun = some content)
      (row : s'.row = Function.update s.row publisher
        { s.row publisher with
          begun := none
          envelopes := s.envelopes publisher ++ [content.envelope now s.seq s.studyId sessionId] })
      (seq : s'.seq = s.seq + 1) (taken : s'.taken = s.taken + 1)

variable {s s' : Reporting Uuid}

theorem row_of_staged (hcontents : s'.contents = s.contents) (hhanded : s'.handed = s.handed)
    (hstaged : s'.staged = s.staged) : s'.row = s.row := by
  funext publisher
  simp only [Reporting.row, Reporting.begun, Reporting.envelopes, hcontents, hhanded, hstaged]

/-- A publisher that was free and takes something in. -/
theorem Effect.begin {publisher : Publisher} {content : Option Content} (hfree : s.staged publisher = none)
    (hcontents : ∀ other,
      s'.contents other = s.contents other ++ if other = publisher then content.toList else [])
    (hstaged : s'.staged = s.begin publisher content) (hhanded : s'.handed = s.handed) (hseq : s'.seq = s.seq)
    (htaken : s'.taken = s.taken) : Effect s s' := by
  cases content with
  | none =>
    refine .quiet (row_of_staged (funext fun other => ?_) hhanded hstaged) hseq htaken
    rw [hcontents other]
    simp
  | some content =>
    refine .begun publisher content (by simp [Reporting.row, Reporting.begun, hfree]) ?_ hseq htaken
    funext other
    by_cases hother : other = publisher
    · subst hother
      rw [Function.update_self]
      ext1
      · simpa [Reporting.row] using hcontents other
      · simp [Reporting.row, Reporting.begun, hstaged, Reporting.begin, Stage.content]
      · simp [Reporting.row, Reporting.envelopes, hstaged, hhanded, Reporting.begin, Stage.envelope, hfree]
    · rw [Function.update_of_ne hother]
      ext1
      · simpa [Reporting.row, hother] using hcontents other
      · simp [Reporting.row, Reporting.begun, hstaged, Reporting.begin, hother]
      · simp [Reporting.row, Reporting.envelopes, hstaged, hhanded, Reporting.begin, hother]

theorem Effect.pre (s : Reporting Uuid) (task : ℕ) (event : SandboxEvent) :
    Effect s (reporterStep s (.pre task event)) := by
  unfold reporterStep
  dsimp only
  cases hstaged : s.staged (.task task) with
  | some stage => exact .quiet rfl rfl rfl
  | none =>
    refine .begin hstaged (fun other => ?_) rfl rfl rfl rfl
    cases other with
    | consumer => exact (List.append_nil _).symm
    | task id =>
      simp only [Reporting.contents, List.filterMap_append, Publisher.task.injEq]
      by_cases hid : task = id
      · subst hid
        cases hreported : reported s.verbosity event <;> simp [hreported]
      · simp [hid, Ne.symm hid]

theorem Effect.recv (s : Reporting Uuid) : Effect s (reporterStep s .recv) := by
  unfold reporterStep
  dsimp only
  cases hstaged : s.staged .consumer with
  | some stage => exact .quiet rfl rfl rfl
  | none =>
    dsimp only
    split
    · split
      · exact .quiet rfl rfl rfl
      · obtain ⟨answer, next⟩ := s.bus.recv s.next
        have hquiet (hanswer : values [answer] = []) :
            Effect s { s with next, history := s.history ++ [answer] } := by
          refine .quiet (row_of_staged (funext fun other => ?_) rfl rfl) rfl rfl
          cases other with
          | task id => rfl
          | consumer => simp only [Reporting.contents, values_append, hanswer, List.append_nil]
        cases answer with
        | lagged count => exact hquiet rfl
        | empty => exact hquiet rfl
        | value event =>
          refine .begin hstaged (fun other => ?_) rfl rfl rfl rfl
          cases other with
          | task id => exact (List.append_nil _).symm
          | consumer =>
            simp only [Reporting.contents, values_append, values, List.filterMap_append, if_true]
            cases hderived : derived event <;> simp [hderived]
    · exact .quiet rfl rfl rfl

theorem Effect.number (s : Reporting Uuid) (publisher : Publisher) (now : Int64) :
    Effect s (reporterStep s (.number publisher now)) := by
  unfold reporterStep
  dsimp only
  cases hstaged : s.staged publisher with
  | none => exact .quiet rfl rfl rfl
  | some stage =>
    cases stage with
    | sending envelope => exact .quiet rfl rfl rfl
    | begun content sessionId =>
      refine .numbered publisher content now sessionId ?_ ?_ rfl rfl
      · simp [Reporting.row, Reporting.begun, hstaged, Stage.content]
      · funext other
        by_cases hother : other = publisher
        · subst hother
          rw [Function.update_self]
          ext1
          · rfl
          · simp [Reporting.row, Reporting.begun, Stage.content]
          · simp [Reporting.row, Reporting.envelopes, Stage.envelope, hstaged]
        · rw [Function.update_of_ne hother]
          simp only [Reporting.row, Reporting.begun, Reporting.envelopes, Function.update_of_ne hother]
          rfl

/-- The broker's answer moves an envelope on, with what the publisher numbered as it was. -/
theorem Effect.answer (s : Reporting Uuid) (publisher : Publisher) (ok : Bool) :
    Effect s (reporterStep s (.answer publisher ok)) := by
  unfold reporterStep
  dsimp only
  cases hstaged : s.staged publisher with
  | none => exact .quiet rfl rfl rfl
  | some stage =>
    cases stage with
    | begun content sessionId => exact .quiet rfl rfl rfl
    | sending envelope =>
      refine .quiet (funext fun other => ?_) rfl rfl
      by_cases hother : other = publisher
      · subst hother
        ext1
        · rfl
        · simp [Reporting.row, Reporting.begun, Stage.content, hstaged]
        · simp [Reporting.row, Reporting.envelopes, Stage.envelope, hstaged]
      · simp only [Reporting.row, Reporting.begun, Reporting.envelopes, Function.update_of_ne hother,
          List.filterMap_append, List.filterMap_cons, List.filterMap_nil, if_neg (Ne.symm hother), List.append_nil]
        rfl

theorem reporterStep_effect (s : Reporting Uuid) (op : ReporterOp) : Effect s (reporterStep s op) := by
  cases op with
  | pre task event => exact .pre s task event
  | recv => exact .recv s
  | number publisher now => exact .number s publisher now
  | answer publisher ok => exact .answer s publisher ok
  | stop => exact .quiet rfl rfl rfl
  | publish event => exact .quiet rfl rfl rfl
  | nextSeq => exact .taken rfl rfl rfl
  | session id => exact .quiet rfl rfl rfl

/-! ## Runs -/

theorem Content.envelope_seq (content : Content) (now : Int64) (seq : UInt64) (studyId : Uuid) (sessionId : UInt32) :
    (content.envelope now seq studyId sessionId).seq = seq := by
  cases content with
  | source event eventTs => cases eventTs <;> rfl
  | derived eventType payload => rfl

theorem reporterStep_studyId (s : Reporting Uuid) (op : ReporterOp) : (reporterStep s op).studyId = s.studyId := by
  cases op <;> simp only [reporterStep] <;> repeat' split
  all_goals rfl

/-- What came in went out in its order, each once, but for the last, which may still wait for its number. -/
def Row.Conveyed (studyId : Uuid) (row : Row Uuid) : Prop :=
  ∃ done, row.contents = done ++ row.begun.toList ∧ List.Forall₂ (Carries studyId) done row.envelopes

/-- The numbers of a publisher grow, and no other has them. -/
structure Numbered (s : Reporting Uuid) : Prop where
  below : ∀ publisher, ∀ envelope ∈ (s.row publisher).envelopes, envelope.seq.toNat < s.taken
  growing : ∀ publisher, (s.row publisher).envelopes.Pairwise (·.seq < ·.seq)
  distinct : ∀ publisher other, publisher ≠ other → ∀ envelope ∈ (s.row publisher).envelopes,
    ∀ envelope' ∈ (s.row other).envelopes, envelope.seq ≠ envelope'.seq

theorem Effect.conveyed (heffect : Effect s s') (hstudy : s'.studyId = s.studyId)
    (h : ∀ publisher, (s.row publisher).Conveyed s.studyId) (other : Publisher) :
    (s'.row other).Conveyed s'.studyId := by
  rw [hstudy]
  cases heffect with
  | quiet hrow => exact hrow ▸ h other
  | taken hrow => exact hrow ▸ h other
  | begun publisher content hfree hrow =>
    rw [hrow]
    by_cases hother : other = publisher
    · subst hother
      obtain ⟨done, hdone, hcarries⟩ := h other
      rw [hfree, Option.toList_none, List.append_nil] at hdone
      rw [Function.update_self]
      exact ⟨done, congrArg (· ++ [content]) hdone, hcarries⟩
    · rw [Function.update_of_ne hother]
      exact h other
  | numbered publisher content now sessionId hbegun hrow =>
    rw [hrow]
    by_cases hother : other = publisher
    · subst hother
      obtain ⟨done, hdone, hcarries⟩ := h other
      rw [hbegun] at hdone
      rw [Function.update_self]
      refine ⟨done ++ [content], hdone.trans (List.append_nil _).symm, ?_⟩
      refine List.rel_append hcarries (.cons ⟨now, sessionId, ?_⟩ .nil)
      rw [Content.envelope_seq]
    · rw [Function.update_of_ne hother]
      exact h other

theorem Numbered.later (h : Numbered s)
    (hsame : ∀ publisher, (s'.row publisher).envelopes = (s.row publisher).envelopes) (htaken : s.taken ≤ s'.taken) :
    Numbered s' := by
  refine ⟨fun publisher envelope henvelope => ?_, fun publisher => ?_, fun publisher other hne => ?_⟩
  · rw [hsame] at henvelope
    exact Nat.lt_of_lt_of_le (h.below publisher envelope henvelope) htaken
  · rw [hsame]
    exact h.growing publisher
  · rw [hsame, hsame]
    exact h.distinct publisher other hne

/-- The number taken is above all before it. -/
theorem Numbered.number (h : Numbered s) (hseq : s.seq.toNat = s.taken) {publisher : Publisher}
    {envelope : Envelope Uuid Payload} (henvelope : envelope.seq = s.seq) {row : Row Uuid}
    (hrow : row.envelopes = (s.row publisher).envelopes ++ [envelope])
    (hrows : s'.row = Function.update s.row publisher row) (htaken : s'.taken = s.taken + 1) : Numbered s' := by
  have hbelow (other : Publisher) : ∀ envelope' ∈ (s.row other).envelopes, envelope'.seq < envelope.seq := by
    intro envelope' hmem
    rw [henvelope, UInt64.lt_iff_toNat_lt, hseq]
    exact h.below other envelope' hmem
  have hself : (s'.row publisher).envelopes = (s.row publisher).envelopes ++ [envelope] := by
    rw [hrows, Function.update_self, hrow]
  have hothers (other : Publisher) (hother : other ≠ publisher) : s'.row other = s.row other := by
    rw [hrows, Function.update_of_ne hother]
  have hfresh (other : Publisher) (hother : other ≠ publisher) :
      ∀ envelope' ∈ (s'.row publisher).envelopes, ∀ envelope'' ∈ (s'.row other).envelopes,
        envelope'.seq ≠ envelope''.seq := by
    rw [hself, hothers other hother]
    intro envelope' hmem envelope'' hmem'
    obtain hmem | hmem := List.mem_append.mp hmem
    · exact h.distinct publisher other (Ne.symm hother) envelope' hmem envelope'' hmem'
    · rw [List.mem_singleton.mp hmem]
      exact (UInt64.ne_of_lt (hbelow other envelope'' hmem')).symm
  refine ⟨fun other envelope' hmem => ?_, fun other => ?_, fun one other hne => ?_⟩
  · rw [htaken]
    by_cases hother : other = publisher
    · subst hother
      rw [hself] at hmem
      obtain hmem | hmem := List.mem_append.mp hmem
      · exact Nat.lt_succ_of_lt (h.below other envelope' hmem)
      · rw [List.mem_singleton.mp hmem, henvelope, hseq]
        exact Nat.lt_succ_self _
    · rw [hothers other hother] at hmem
      exact Nat.lt_succ_of_lt (h.below other envelope' hmem)
  · by_cases hother : other = publisher
    · subst hother
      rw [hself, List.pairwise_append]
      refine ⟨h.growing other, List.pairwise_singleton _ _, fun envelope' hmem envelope'' hmem' => ?_⟩
      rw [List.mem_singleton.mp hmem']
      exact hbelow other envelope' hmem
    · rw [hothers other hother]
      exact h.growing other
  · by_cases hone : one = publisher
    · subst hone
      exact hfresh other (Ne.symm hne)
    · by_cases hother : other = publisher
      · subst hother
        intro envelope' hmem envelope'' hmem'
        exact (hfresh one hone envelope'' hmem' envelope' hmem).symm
      · rw [hothers one hone, hothers other hother]
        exact h.distinct one other hne

/-- The counter turns over at 2^64. -/
def Counted (s : Reporting Uuid) : Prop :=
  s.seq = .ofNat s.taken ∧ (s.taken ≤ 18446744073709551616 → Numbered s)

theorem Effect.counted (heffect : Effect s s') (h : Counted s) : Counted s' := by
  obtain ⟨hseq, hnumbered⟩ := h
  cases heffect with
  | quiet hrow hseq' htaken =>
    rw [Counted, hseq', htaken]
    exact ⟨hseq, fun hroom => (hnumbered hroom).later (fun _ => by rw [hrow]) htaken.ge⟩
  | taken hrow hseq' htaken =>
    rw [Counted, hseq', htaken, hseq]
    refine ⟨(UInt64.ofNat_add s.taken 1).symm, fun hroom => ?_⟩
    exact (hnumbered (Nat.le_of_succ_le hroom)).later (fun _ => by rw [hrow]) (htaken ▸ Nat.le_succ _)
  | begun publisher content hfree hrow hseq' htaken =>
    rw [Counted, hseq', htaken]
    refine ⟨hseq, fun hroom => (hnumbered hroom).later (fun other => ?_) htaken.ge⟩
    rw [hrow]
    by_cases hother : other = publisher
    · subst hother
      rw [Function.update_self]
    · rw [Function.update_of_ne hother]
  | numbered publisher content now sessionId hbegun hrow hseq' htaken =>
    rw [Counted, hseq', htaken, hseq]
    refine ⟨(UInt64.ofNat_add s.taken 1).symm, fun hroom => ?_⟩
    have hnumber : s.seq.toNat = s.taken := by
      rw [hseq, UInt64.toNat_ofNat']
      exact Nat.mod_eq_of_lt hroom
    exact (hnumbered (Nat.le_of_succ_le hroom)).number hnumber (content.envelope_seq ..) rfl hrow htaken

/-- The consumer follows the bus from the subscription of `start` on. -/
theorem reporterStep_follows (start : ℕ) (op : ReporterOp) (h : Follows s.bus start s.history s.next) :
    Follows (reporterStep s op).bus start (reporterStep s op).history (reporterStep s op).next := by
  cases op with
  | publish event => exact h.send event
  | recv =>
    simp only [reporterStep]
    split
    · exact h
    · split
      · split
        · exact h
        · have hrecv := h.recv
          split <;> simp_all only
      · exact h
  | stop => exact h
  | nextSeq => exact h
  | session id => exact h
  | pre task event | number publisher now | answer publisher ok =>
    simp only [reporterStep]
    split <;> exact h

/-- What every state of a run keeps. -/
structure Sound (studyId : Uuid) (verbosity : EventVerbosity) (start : ℕ) (s : Reporting Uuid) : Prop where
  study : s.studyId = studyId
  level : s.verbosity = verbosity
  conveyed : ∀ publisher, (s.row publisher).Conveyed studyId
  counted : Counted s
  follows : Follows s.bus start s.history s.next

theorem sound_start (verbosity : EventVerbosity) (studyId : Uuid) (currentSession : Option UInt32)
    (bus : Channel AgentBusEvent) :
    Sound studyId verbosity bus.log.length (.start verbosity studyId currentSession bus) := by
  have hrow (publisher : Publisher) :
      (Reporting.start verbosity studyId currentSession bus).row publisher = ⟨[], none, []⟩ := by
    cases publisher <;> rfl
  refine ⟨rfl, rfl, fun publisher => ?_, ⟨rfl, fun _ => ⟨?_, ?_, ?_⟩⟩, follows_subscribe bus⟩
  · rw [hrow]
    exact ⟨[], rfl, .nil⟩
  all_goals simp [hrow]

theorem Sound.step {studyId : Uuid} {verbosity : EventVerbosity} {start : ℕ} (h : Sound studyId verbosity start s)
    (op : ReporterOp) : Sound studyId verbosity start (reporterStep s op) := by
  have hstudy := reporterStep_studyId s op
  have heffect := reporterStep_effect s op
  refine ⟨hstudy.trans h.study, ?_, ?_, heffect.counted h.counted, reporterStep_follows start op h.follows⟩
  · refine Eq.trans ?_ h.level
    cases op <;> simp only [reporterStep] <;> repeat' split
    all_goals rfl
  · have hconveyed := heffect.conveyed hstudy (h.study.symm ▸ h.conveyed)
    rwa [hstudy, h.study] at hconveyed

theorem contents_silent (hquiet : s.verbosity ≠ .full) (id : ℕ) : s.contents (.task id) = [] := by
  simp [Reporting.contents, reported, hquiet]

/-- However the sources, the consumer, the broker and the other plugins interleave: what a source's task
accepts, and what the consumer reads of the bus, goes to the broker in its order, each event once, under the
study's id and, for a dated event, at its own time; short of full verbosity no source event does. What the
consumer reads is in the order of the bus, and with what it was told it missed, can no longer read and has yet
to read it makes up everything published since the start. Up to 2^64 numbers, no number is on two envelopes, and
those of a publisher grow. -/
theorem reporter_stream (verbosity : EventVerbosity) (studyId : Uuid) (currentSession : Option UInt32)
    (bus : Channel AgentBusEvent) (ops : List ReporterOp) :
    let s := run reporterStep (.start verbosity studyId currentSession bus) ops
    (∀ publisher, ∃ done, s.contents publisher = done ++ (s.begun publisher).toList ∧
      List.Forall₂ (Carries studyId) done (s.envelopes publisher)) ∧
    (verbosity ≠ .full → ∀ id, s.envelopes (.task id) = []) ∧
    (values s.history ++ s.bus.unread s.next).Sublist (s.bus.log.drop bus.log.length) ∧
    bus.log.length + (values s.history).length + missed s.history + s.bus.behind s.next +
      (s.bus.unread s.next).length = s.bus.log.length ∧
    (s.taken ≤ 18446744073709551616 →
      (∀ publisher, (s.envelopes publisher).Pairwise (·.seq < ·.seq)) ∧
      ∀ publisher other, publisher ≠ other → ∀ envelope ∈ s.envelopes publisher,
        ∀ envelope' ∈ s.envelopes other, envelope.seq ≠ envelope'.seq) := by
  intro s
  have h : Sound studyId verbosity bus.log.length s :=
    run_invariant (fun _ op hsound => hsound.step op) (sound_start verbosity studyId currentSession bus) ops
  refine ⟨h.conveyed, fun hquiet id => ?_, h.follows.sublist, h.follows.account, fun hroom => ?_⟩
  · obtain ⟨done, hdone, hcarries⟩ := h.conveyed (.task id)
    have hnone : [] = done ++ (s.begun (.task id)).toList :=
      (contents_silent (h.level.symm ▸ hquiet) id).symm.trans hdone
    obtain ⟨rfl, -⟩ := List.append_eq_nil_iff.mp hnone.symm
    exact List.forall₂_nil_left_iff.mp hcarries
  · have hnumbered := h.counted.2 hroom
    exact ⟨hnumbered.growing, hnumbered.distinct⟩

end

end SecOutfall.Reporter
