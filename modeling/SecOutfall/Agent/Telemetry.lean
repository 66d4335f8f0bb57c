import Mathlib.Data.List.Induction
import SecOutfall.Agent.DrainWalk
import SecOutfall.Agent.RecordMapping
import SecOutfall.Delivery.Conservation
import SecOutfall.Wire.RoundTrip

/-! From the driver's callbacks to the agent's pipeline: the emitting routines, the three queues, `GET_DATA`, the
drain walk and `map_record` in one run. -/
namespace SecOutfall.Agent
open Runs Wire Delivery
set_option autoImplicit false

/-! ## Model -/

/-- The queue an emitting routine pushes to. -/
def queueClass : Emission → QueueClass
  | .fileCreated _ _ _ | .fileWritten _ _ _ _ _ | .fileCleanedUp _ _ _ | .fileDeleted _ _ _ | .fileRenamed _ _ _ _
  | .behaviorCall _ _ _ _ _ _ _ _ => .files
  | .dropCaptured _ _ _ _ _ => .drops
  | _ => .items

/-- What a routine is to record, and whether the pool has the memory for it. -/
structure Notice where
  emission : Emission
  stamp : Stamp
  allocated : Bool

def Notice.wireRecord (notice : Notice) : Option Driver.WireRecord :=
  if notice.allocated then some ⟨notice.stamp.sequence, notice.emission.record notice.stamp⟩ else none

/-- What the agent should read of it. -/
def Notice.meaning (notice : Notice) : Record := notice.emission.expected notice.stamp

/-- A ring slot that a drain promotes. -/
structure Call where
  pid : UInt32
  createTime : UInt64
  threadId : UInt32
  api : UInt32
  arg0 : UInt64
  arg1 : UInt64
  arg2 : UInt64
  arg3 : UInt64
  stamp : Stamp
  allocated : Bool

def Call.notice (call : Call) : Notice :=
  ⟨.behaviorCall call.pid call.createTime call.threadId call.api call.arg0 call.arg1 call.arg2 call.arg3, call.stamp,
    call.allocated⟩

inductive Act where
  | emit (notice : Notice)
  | getData (size : ℕ) (mdl mapped : Bool) (promoted : List Call)

def request (size : ℕ) (mdl mapped : Bool) (promoted : List Call) : GetData :=
  ⟨size, mdl, mapped, promoted.map (·.notice.wireRecord)⟩

def Act.op : Act → Delivery.Op
  | .emit notice => .emit (queueClass notice.emission) notice.wireRecord
  | .getData size mdl mapped promoted => .getData (request size mdl mapped promoted)

/-- The notices that became records. -/
def Act.recorded : Act → List Notice
  | .emit notice => [notice].filter (·.allocated)
  | .getData size mdl mapped promoted =>
    if (request size mdl mapped promoted).accepted && mapped then (promoted.map Call.notice).filter (·.allocated)
    else []

def recorded (acts : List Act) : List Notice := acts.flatMap Act.recorded

/-- The agent's walks over the batches, one after another, `now i` being the clock at the walk over batch `i`. -/
def walks (now : ℕ → ℤ) (batches : List Batch) : DriverSource :=
  run drainBatch .new (batches.zipIdx.map fun batch => (batch.1.bytes, now batch.2))

/-- What the walks hand to the inlet. -/
def pipelineEvents (source : DriverSource) : List SourceWire.SourceEvent :=
  mapRecords .opened (source.delivered.map (·.1))

/-! ## What is offered to the queues -/

def offeredBytes (s : Driver) : List (QueueClass × List UInt8) :=
  s.history.offers.map fun offer => (offer.cls, offer.item.bytes)

def Notice.offer (notice : Notice) : QueueClass × List UInt8 :=
  (queueClass notice.emission, notice.emission.record notice.stamp)

theorem offeredBytes_emit (s : Driver) (c : QueueClass) (record : Option Driver.WireRecord) :
    offeredBytes (s.emit c record) = offeredBytes s ++ record.toList.map fun r => (c, r.bytes) := by
  obtain ⟨rfl, he⟩ | ⟨r, rfl, ⟨rfl, -, he⟩ | ⟨q, -, he⟩ | ⟨-, old, q, -, he⟩⟩ := emit_cases s c record
  · rw [he]
    simp [offeredBytes]
  · rw [he]
    simp [offeredBytes, Driver.refuse, Driver.noteAllocated, Driver.noteOffer, Driver.newItem]
  · rw [he]
    simp [offeredBytes, Driver.link, Driver.noteAllocated, Driver.noteOffer, Driver.setQueue, Driver.newItem]
  · rw [he, offeredBytes, Driver.linkOver, Driver.countOverflow_history]
    simp [offeredBytes, Driver.exFreePool, Driver.noteDeparture, Driver.link, Driver.noteAllocated, Driver.noteOffer,
      Driver.setQueue, Driver.newItem]

theorem Notice.wireRecord_offer (notice : Notice) :
    (notice.wireRecord.toList.map fun r => (queueClass notice.emission, r.bytes)) =
      ([notice].filter (·.allocated)).map Notice.offer := by
  unfold Notice.wireRecord
  cases hallocated : notice.allocated <;> simp [hallocated, Notice.offer]

theorem offeredBytes_promote (s : Driver) (calls : List Call) :
    offeredBytes (s.promote (calls.map (·.notice.wireRecord))) =
      offeredBytes s ++ ((calls.map Call.notice).filter (·.allocated)).map Notice.offer := by
  induction calls generalizing s with
  | nil => simp [Driver.promote]
  | cons call calls ih =>
    have hfirst := offeredBytes_emit s .files call.notice.wireRecord
    have hoffer : (call.notice.wireRecord.toList.map fun r => (QueueClass.files, r.bytes)) =
        ([call.notice].filter (·.allocated)).map Notice.offer := call.notice.wireRecord_offer
    have hsplit : (call :: calls).map Call.notice = [call.notice] ++ calls.map Call.notice := rfl
    rw [hsplit, List.filter_append, List.map_append, ← List.append_assoc, ← hoffer, ← hfirst]
    exact ih _

theorem drainBody_offers {size : ℕ} {d d' : Drain} (h : drainBody size d = some d') :
    d'.driver.history.offers = d.driver.history.offers := by
  obtain ⟨c, hc⟩ := drainBody_popped h
  obtain ⟨item, q, -, ⟨-, rfl⟩ | ⟨-, -, rfl⟩⟩ := popped_cases hc
  · rfl
  · rfl

theorem offeredBytes_drainLoop (size : ℕ) (d : Drain) :
    offeredBytes (drainLoop size d).driver = offeredBytes d.driver := by
  have hoffers := @runLoop_invariant _ (drainBody size)
    ( fun d' : Drain => d'.driver.history.offers = d.driver.history.offers)
    (fun _ _ hbody hsame => (drainBody_offers hbody).trans hsame) d.driver.queued (s := d) rfl
  unfold offeredBytes drainLoop
  rw [hoffers]

theorem offeredBytes_step (s : Driver) (act : Act) :
    offeredBytes (Delivery.step s act.op) = offeredBytes s ++ act.recorded.map Notice.offer := by
  cases act with
  | emit notice =>
    show offeredBytes (s.emit _ _) = _
    rw [offeredBytes_emit, notice.wireRecord_offer]
    rfl
  | getData size mdl mapped promoted =>
    show offeredBytes (getData s (request size mdl mapped promoted)).2 = _
    rw [getData, Act.recorded]
    cases haccepted : (request size mdl mapped promoted).accepted with
    | false => exact (List.append_nil _).symm
    | true =>
      cases mapped with
      | false => exact (List.append_nil _).symm
      | true =>
        have hloop := offeredBytes_drainLoop size ⟨s.promote (promoted.map (·.notice.wireRecord)), 0, [], []⟩
        exact hloop.trans (offeredBytes_promote s promoted)

/-- The queues are offered the records of the notices, in order. -/
theorem offeredBytes_run (acts : List Act) :
    offeredBytes (run Delivery.step Driver.init (acts.map Act.op)) = (recorded acts).map Notice.offer := by
  induction acts using List.reverseRecOn with
  | nil => rfl
  | append_singleton acts act ih =>
    rw [List.map_append, run_append, List.map_singleton, run_cons, run_nil, offeredBytes_step, ih, recorded,
      recorded, List.flatMap_append, List.map_append]
    simp

/-! ## Nothing is oversized -/

/-- Only a record beyond the largest accepted request is skipped. -/
def SkipsOversized (s : Driver) : Prop := ∀ x ∈ s.departedBy .skipped, maxRecordBytes < x.2.size

theorem emit_departedBy_skipped (s : Driver) (c : QueueClass) (record : Option Driver.WireRecord) :
    (s.emit c record).departedBy .skipped = s.departedBy .skipped := by
  obtain ⟨-, he⟩ | ⟨r, -, ⟨-, -, he⟩ | ⟨q, -, he⟩ | ⟨-, old, q, -, he⟩⟩ := emit_cases s c record
  · rw [he]
    rfl
  · rw [he]
    rfl
  · rw [he]
    rfl
  · rw [he, Driver.departedBy_linkOver, if_neg (by decide), List.append_nil]

theorem SkipsOversized.promote {s : Driver} (h : SkipsOversized s) (records : List (Option Driver.WireRecord)) :
    SkipsOversized (s.promote records) := by
  induction records generalizing s with
  | nil => exact h
  | cons record records ih =>
    apply ih
    unfold SkipsOversized
    rw [emit_departedBy_skipped]
    exact h

theorem SkipsOversized.drainBody {size : ℕ} (hsize : maxRecordBytes ≤ size) {d d' : Drain}
    (hbody : Delivery.drainBody size d = some d') (h : SkipsOversized d.driver) : SkipsOversized d'.driver := by
  obtain ⟨c, hc⟩ := drainBody_popped hbody
  obtain ⟨item, q, -, ⟨-, rfl⟩ | ⟨hover, -, rfl⟩⟩ := popped_cases hc
  · intro x hx
    have hleave := d.driver.departedBy_leave c item .delivered .skipped q
    rw [if_neg (by decide), List.append_nil] at hleave
    exact h x (hleave ▸ hx)
  · intro x hx
    have hleave := d.driver.departedBy_leave c item .skipped .skipped q
    rw [if_pos rfl] at hleave
    have hmem : x ∈ d.driver.departedBy .skipped ++ [(c, item)] := hleave ▸ hx
    rw [List.mem_append, List.mem_singleton] at hmem
    obtain hold | rfl := hmem
    · exact h x hold
    · exact hsize.trans_lt hover

theorem SkipsOversized.step {s : Driver} (h : SkipsOversized s) (op : Delivery.Op) :
    SkipsOversized (Delivery.step s op) := by
  cases op with
  | emit c record =>
    show SkipsOversized (s.emit c record)
    unfold SkipsOversized
    rw [emit_departedBy_skipped]
    exact h
  | getData request =>
    simp only [Delivery.step, getData]
    split
    · exact h
    · rename_i haccepted
      split
      · exact h
      · have hsize : maxRecordBytes ≤ request.size := by
          simp only [GetData.accepted, Bool.not_eq_true', Bool.not_eq_false, Bool.or_eq_false_iff,
            decide_eq_false_iff_not, not_lt] at haccepted
          exact haccepted.2
        exact @runLoop_invariant _ (Delivery.drainBody request.size) (fun d => SkipsOversized d.driver)
          (fun _ _ hbody hd => hd.drainBody hsize hbody) _ ⟨s.promote request.promoted, 0, [], []⟩
          (h.promote request.promoted)

/-! ## What the walks read -/

/-- The records that the bytes say, under their queues. -/
def readings (items : List (QueueClass × Item)) : List (QueueClass × Record) :=
  items.filterMap fun x => (decode x.2.bytes).toOption.map fun record => (x.1, record)

def Notice.told (notice : Notice) : QueueClass × Record := (queueClass notice.emission, notice.meaning)

/-- Bytes that one of the emitting routines wrote. -/
def Emitted (bytes : List UInt8) : Prop := ∃ record, Conveys bytes record

theorem Emitted.sized {bytes : List UInt8} (h : Emitted bytes) : Sized bytes := by
  obtain ⟨record, hconveys⟩ := h
  have hsize := hconveys.size []
  rw [List.append_nil] at hsize
  obtain ⟨sizeRaw, hread, hraw, hlow, -⟩ := recordSize_ok.mp hsize
  exact ⟨hlow, sizeRaw, hread, hraw⟩

theorem Emitted.decode {bytes : List UInt8} (h : Emitted bytes) : ∃ record, Wire.decode bytes = .ok record := by
  obtain ⟨record, hconveys⟩ := h
  have hdecoded := hconveys.decoded []
  rw [List.append_nil] at hdecoded
  exact ⟨record, hdecoded⟩

theorem readings_append (items more : List (QueueClass × Item)) :
    readings (items ++ more) = readings items ++ readings more := List.filterMap_append

theorem readings_length {items : List (QueueClass × Item)} (h : ∀ x ∈ items, Emitted x.2.bytes) :
    (readings items).length = items.length := by
  induction items with
  | nil => rfl
  | cons x items ih =>
    obtain ⟨record, hdecode⟩ := (h x List.mem_cons_self).decode
    have hrest := ih fun y hy => h y (List.mem_cons_of_mem _ hy)
    rw [readings, List.filterMap_cons, hdecode]
    exact congrArg (· + 1) hrest

theorem readings_filter (items : List (QueueClass × Item)) (c : QueueClass) :
    readings (items.filter fun x => x.1 = c) = (readings items).filter fun x => x.1 = c := by
  unfold readings
  rw [List.filterMap_filter, List.filter_filterMap]
  congr 1
  funext x
  cases (decode x.2.bytes).toOption with
  | none => simp
  | some record =>
    by_cases hc : x.1 = c
    · simp [Option.filter, hc]
    · simp [Option.filter, hc]

theorem decodable_map (items : List (QueueClass × Item)) :
    decodable (items.map fun x => x.2.bytes) = (readings items).map Prod.snd := by
  induction items with
  | nil => rfl
  | cons x items ih =>
    unfold decodable readings at ih ⊢
    rw [List.map_cons, List.filterMap_cons, List.filterMap_cons]
    cases decode x.2.bytes with
    | error e => exact ih
    | ok record => exact congrArg (record :: ·) ih

/-- A walk over one batch of emitted records reads each of them. -/
theorem drainBatch_reads (source : DriverSource) (now : ℤ) {items : List (QueueClass × Item)}
    (h : ∀ x ∈ items, Emitted x.2.bytes) :
    let walked := drainBatch source (items.flatMap fun x => x.2.bytes, now)
    walked.skipped = source.skipped ∧ walked.decoded = source.decoded + (readings items).length ∧
      walked.delivered.map Prod.fst = source.delivered.map Prod.fst ++
        ((readings items).map Prod.snd).filter fun record => mapsToSource record.payload := by
  intro walked
  have hsized : ∀ chunk ∈ items.map fun x => x.2.bytes, Sized chunk := by
    intro chunk hchunk
    obtain ⟨x, hx, rfl⟩ := List.mem_map.mp hchunk
    exact (h x hx).sized
  have hwalk : walked = _ := congrArg Prod.snd (runLoop_chunks hsized now source le_rfl)
  rw [foldl_visit, decodable_map] at hwalk
  rw [hwalk]
  refine ⟨?_, ?_, foldl_deliver_delivered now source _⟩
  · show source.skipped + (_ - _) = _
    rw [List.length_map, List.length_map, readings_length h]
    omega
  · exact (foldl_deliver_decoded now source _).trans (by rw [List.length_map])

theorem walks_read (now : ℕ → ℤ) {batches : List Batch} (hformed : ∀ b ∈ batches, b.WellFormed)
    (h : ∀ x ∈ batches.flatMap Batch.records, Emitted x.2.bytes) :
    (walks now batches).skipped = 0 ∧
      (walks now batches).decoded = (readings (batches.flatMap Batch.records)).length ∧
      (walks now batches).delivered.map Prod.fst =
        ((readings (batches.flatMap Batch.records)).map Prod.snd).filter fun r => mapsToSource r.payload := by
  induction batches using List.reverseRecOn with
  | nil => exact ⟨rfl, rfl, rfl⟩
  | append_singleton batches batch ih =>
    rw [List.flatMap_append, List.flatMap_singleton] at h ⊢
    rw [List.forall_mem_append] at h hformed
    obtain ⟨hskipped, hdecoded, hdelivered⟩ := ih hformed.1 h.1
    have hstep : walks now (batches ++ [batch]) =
        drainBatch (walks now batches) (batch.records.flatMap fun x => x.2.bytes, now batches.length) := by
      rw [← (hformed.2 batch (List.mem_singleton_self _)).1, walks, List.zipIdx_append, List.map_append, run_append]
      simp [walks]
    obtain ⟨hs, hd, hl⟩ := drainBatch_reads (walks now batches) (now batches.length) h.2
    rw [hstep, hs, hd, hl, hskipped, hdecoded, hdelivered, readings_append, List.length_append, List.map_append,
      List.filter_append]
    exact ⟨rfl, rfl, rfl⟩

/-! ## The whole way -/

theorem Notice.emitted (notice : Notice) : Emitted notice.offer.2 :=
  ⟨notice.meaning, notice.emission.conveys notice.stamp⟩

theorem readings_offered {items : List (QueueClass × Item)} {notices : List Notice}
    (h : items.map (fun x => (x.1, x.2.bytes)) = notices.map Notice.offer) :
    readings items = notices.map Notice.told := by
  have hread : ∀ notice : Notice, (decode notice.offer.2).toOption.map (fun record => (notice.offer.1, record)) =
      some notice.told := by
    intro notice
    have hdecoded := (notice.emission.conveys notice.stamp).decoded []
    rw [List.append_nil] at hdecoded
    rw [Notice.offer, hdecoded]
    rfl
  have hfactor : readings items = (items.map fun x => (x.1, x.2.bytes)).filterMap
      fun x => (decode x.2).toOption.map fun record => (x.1, record) := by
    rw [List.filterMap_map]
    rfl
  rw [hfactor, h, List.filterMap_map, ← List.filterMap_eq_map]
  congr 1
  funext notice
  exact hread notice

theorem linked_length (s : Driver) : s.linked.length = s.queued := by
  simp only [Driver.linked, Driver.queued, queues, List.flatMap_cons, List.flatMap_nil, List.append_nil,
    List.length_append, List.length_map]
  omega

theorem evicted_length {s : Driver} (h : Counted s) :
    (s.departedBy .evicted).length = s.counters.queueOverwritten + s.counters.filesOverwritten := by
  have hsplit := (perm_by_class Prod.fst (s.departedBy .evicted)).length_eq
  have hdrops : (s.departedBy .evicted).filter (fun x => x.1 = .drops) = [] := by
    rw [List.filter_eq_nil_iff]
    intro x hx
    simpa using h.dropsKept x hx
  rw [hsplit, h.queueOverwritten, h.filesOverwritten]
  simp only [queues, List.flatMap_cons, List.flatMap_nil, List.append_nil, List.length_append, hdrops]

/-- What the driver's callbacks notice reaches the pipeline, waits in a queue or is counted as lost; nothing is read
that was not noticed, no batch has bytes that do not read, each queue keeps its order, and the events are those of
the records read. -/
theorem kernel_to_pipeline (acts : List Act) (now : ℕ → ℤ) :
    let s := run Delivery.step Driver.init (acts.map Act.op)
    let source := walks now s.history.batches
    let read := readings (s.history.batches.flatMap Batch.records)
    ((recorded acts).map Notice.told).Perm
      (read ++ readings s.linked ++ readings (s.departedBy .evicted) ++ readings s.refused) ∧
    (∀ c, (read.filter fun x => x.1 = c).Sublist (((recorded acts).map Notice.told).filter fun x => x.1 = c)) ∧
    pipelineEvents source = mapRecords .opened (read.map Prod.snd) ∧
    source.skipped = 0 ∧ s.counters.oversizedSkipped = 0 ∧
    (recorded acts).length = source.decoded + s.queued + s.counters.queueOverwritten +
      s.counters.filesOverwritten + s.counters.dropsStopped := by
  intro s source read
  have hchain : Chained s := chained_stepClosed.run chained_init _
  have hcount : Counted s := counted_stepClosed.run counted_init _
  have hbatch : Batched s := run_invariant (fun _ op h => h.step op) batched_init _
  have hskips : SkipsOversized s :=
    run_invariant (I := SkipsOversized) (fun _ op h => h.step op) (fun x hx => absurd hx List.not_mem_nil) _
  have hoffered : s.offered.map (fun x => (x.1, x.2.bytes)) = (recorded acts).map Notice.offer := by
    rw [← offeredBytes_run, Driver.offered, List.map_map]
    rfl
  have hemitted : ∀ x ∈ s.offered, Emitted x.2.bytes := by
    intro x hx
    have hmem := List.mem_map_of_mem (f := fun x : QueueClass × Item => (x.1, x.2.bytes)) hx
    rw [hoffered, List.mem_map] at hmem
    obtain ⟨notice, -, hnotice⟩ := hmem
    have hbytes : notice.offer.2 = x.2.bytes := congrArg Prod.snd hnotice
    exact hbytes ▸ notice.emitted
  have hconserved := hchain.conserved
  have hnone : s.departedBy .skipped = [] := by
    rw [List.eq_nil_iff_forall_not_mem]
    intro x hx
    obtain ⟨record, hconveys⟩ := hemitted x (hconserved.mem_iff.mpr (List.mem_append_right _ hx))
    exact absurd hconveys.bounded (not_le.mpr (hskips x hx))
  rw [hnone, List.append_nil] at hconserved
  have hdelivered : ∀ x ∈ s.history.batches.flatMap Batch.records, Emitted x.2.bytes := by
    intro x hx
    rw [hbatch.delivered] at hx
    refine hemitted x (hconserved.mem_iff.mpr ?_)
    simp [hx]
  obtain ⟨hskipped, hdecoded, hread⟩ := walks_read now hbatch.wellFormed hdelivered
  have htold := readings_offered hoffered
  refine ⟨?_, ?_, ?_, hskipped, ?_, ?_⟩
  · have hperm := hconserved.filterMap fun x => (decode x.2.bytes).toOption.map fun record => (x.1, record)
    simp only [List.filterMap_append] at hperm
    rw [← htold]
    show List.Perm _ (readings (s.history.batches.flatMap Batch.records) ++ _ ++ _ ++ _)
    rw [hbatch.delivered]
    exact hperm
  · intro c
    have hsub := hchain.delivered_sublist c
    rw [← hbatch.delivered] at hsub
    rw [← htold, ← readings_filter, ← readings_filter]
    exact hsub.filterMap _
  · show mapRecords .opened (source.delivered.map Prod.fst) = _
    rw [hread, mapRecords_filter]
  · rw [hcount.oversizedSkipped, hnone]
    rfl
  · have hlength := hconserved.length_eq
    have hnotices := congrArg List.length hoffered
    rw [List.length_map, List.length_map] at hnotices
    simp only [List.length_append, linked_length, evicted_length hcount, ← hcount.dropsStopped] at hlength
    rw [hdecoded, readings_length hdelivered, hbatch.delivered]
    omega

end SecOutfall.Agent
