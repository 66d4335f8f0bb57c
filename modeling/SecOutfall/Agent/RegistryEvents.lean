import SecOutfall.Agent.Telemetry
import SecOutfall.Notify.Registry

/-! The registry records from the callback to the agent: what `OnRegistryNotify` reports, among the records of the
other callbacks and over any requests. -/
namespace SecOutfall.RegistryEvents
open Agent (SkipsOversized offeredBytes offeredBytes_emit offeredBytes_drainLoop)
open Delivery Notify Runs Wire
set_option autoImplicit false

/-! ## What the agent reads -/

def isRegistry (record : Record) : Bool :=
  match record.payload with
  | .registryKeyCreated _ | .registryKeyDeleted _ | .registrySetValue _ _ _ _ => true
  | _ => false

/-- The registry record that the bytes say, where they are the first queue's. -/
def registryRecord (x : QueueClass × List UInt8) : Option Record :=
  if x.1 = .items then (decode x.2).toOption.filter isRegistry else none

def registryRecords (items : List (QueueClass × Item)) : List Record :=
  items.filterMap fun x => registryRecord (x.1, x.2.bytes)

/-- The record the agent is to read. -/
def reportMeaning (report : RegReport) : Record := report.emission.expected report.stamp

def reported (s : Watcher) : List Record := (s.reports.filter (·.allocated)).map reportMeaning

theorem registryRecord_emission (emission : Emission) (stamp : Stamp) :
    registryRecord (.items, emission.record stamp) =
      if isRegistry (emission.expected stamp) then some (emission.expected stamp) else none := by
  have hdecoded := (emission.conveys stamp).decoded []
  rw [List.append_nil] at hdecoded
  unfold registryRecord
  rw [if_pos rfl, hdecoded]
  rfl

theorem registryRecord_other {c : QueueClass} (h : c ≠ .items) (bytes : List UInt8) :
    registryRecord (c, bytes) = none := if_neg h

theorem emission_isRegistry {upcase : UInt16 → UInt16} {operation : RegOperation} {path : KeyName}
    {identity : UInt64} {emission : Emission} (h : operation.emission upcase path identity = some emission)
    (stamp : Stamp) : isRegistry (emission.expected stamp) = true := by
  unfold RegOperation.emission at h
  split at h
  · cases h
  · split at h
    · cases h
    · split at h
      · obtain rfl := Option.some.inj h
        rfl
      · cases h
    · obtain rfl := Option.some.inj h
      rfl
    · obtain rfl := Option.some.inj h
      rfl
    · cases h

/-! ## What a step offers -/

/-- Offers and reports grow by the same registry records, and by nothing too large for a request. -/
def Adds (s s' : Watcher) : Prop :=
  ∃ more added, offeredBytes s'.system.driver = offeredBytes s.system.driver ++ more ∧
    s'.reports = s.reports ++ added ∧
    more.filterMap registryRecord = (added.filter (·.allocated)).map reportMeaning ∧
    ∀ x ∈ more, x.1 = .items → x.2.length ≤ maxRecordBytes

theorem Adds.nothing {s s' : Watcher} (hdriver : s'.system.driver = s.system.driver)
    (hreports : s'.reports = s.reports) : Adds s s' :=
  ⟨[], [], by rw [hdriver, List.append_nil], by rw [hreports, List.append_nil], rfl,
    fun _ hx => absurd hx List.not_mem_nil⟩

/-- A record of another callback. -/
theorem Adds.record {s s' : Watcher} {record : Option Driver.WireRecord} {emission : Emission} {stamp : Stamp}
    (hdriver : s'.system.driver = s.system.driver.emit .items record) (hreports : s'.reports = s.reports)
    (hbytes : ∀ r ∈ record, r.bytes = emission.record stamp) (hother : isRegistry (emission.expected stamp) = false) :
    Adds s s' := by
  refine ⟨record.toList.map fun r => (.items, r.bytes), [], ?_, ?_, ?_, ?_⟩
  · rw [hdriver, offeredBytes_emit]
  · rw [hreports, List.append_nil]
  · cases record with
    | none => rfl
    | some r =>
      have hnone := registryRecord_emission emission stamp
      rw [hother, if_neg Bool.false_ne_true, ← hbytes r rfl] at hnone
      simp [hnone]
  · intro x hx _
    obtain ⟨r, hr, rfl⟩ := List.mem_map.mp hx
    rw [hbytes r (Option.mem_toList.mp hr)]
    exact (emission.conveys stamp).bounded

theorem Adds.report {s s' : Watcher} {k : ℕ} {emission : Emission} {stamp : Stamp} {allocated : Bool}
    {r : Option Driver.WireRecord} (hdriver : s'.system.driver = s.system.driver.emit .items r)
    (hrecord : r.toList.map Driver.WireRecord.bytes = if allocated then [emission.record stamp] else [])
    (hreports : s'.reports = s.reports ++ [⟨k, emission, stamp, allocated⟩])
    (hregistry : isRegistry (emission.expected stamp) = true) : Adds s s' := by
  refine ⟨r.toList.map fun w => (.items, w.bytes), _, ?_, hreports, ?_, ?_⟩
  · rw [hdriver, offeredBytes_emit]
  · have hpairs : (r.toList.map fun w => (QueueClass.items, w.bytes)) =
        (r.toList.map Driver.WireRecord.bytes).map fun bytes => (.items, bytes) := by
      rw [List.map_map]
      rfl
    rw [hpairs, hrecord]
    cases allocated with
    | false => rfl
    | true =>
      have hsome := registryRecord_emission emission stamp
      rw [hregistry, if_pos rfl] at hsome
      simp [hsome, reportMeaning]
  · intro x hx _
    obtain ⟨w, hw, rfl⟩ := List.mem_map.mp hx
    have hmem : w.bytes ∈ r.toList.map Driver.WireRecord.bytes := List.mem_map_of_mem hw
    rw [hrecord] at hmem
    cases allocated with
    | false => cases hmem
    | true =>
      rw [List.mem_singleton.mp hmem]
      exact (emission.conveys stamp).bounded

/-- Ring slots are promoted to the queue of the files. -/
theorem offeredBytes_promoted (s : Driver) (records : List (Option Driver.WireRecord)) :
    ∃ more, offeredBytes (s.promote records) = offeredBytes s ++ more ∧ ∀ x ∈ more, x.1 = .files := by
  induction records generalizing s with
  | nil => exact ⟨[], (List.append_nil _).symm, fun _ hx => absurd hx List.not_mem_nil⟩
  | cons record records ih =>
    obtain ⟨more, hmore, hfiles⟩ := ih (s.emit .files record)
    refine ⟨(record.toList.map fun r => (.files, r.bytes)) ++ more, ?_, ?_⟩
    · rw [← List.append_assoc, ← offeredBytes_emit]
      exact hmore
    · intro x hx
      rcases List.mem_append.mp hx with hfirst | hrest
      · obtain ⟨r, -, rfl⟩ := List.mem_map.mp hfirst
        rfl
      · exact hfiles x hrest

theorem offeredBytes_getData (s : Driver) (request : GetData) :
    ∃ more, offeredBytes (Delivery.getData s request).2 = offeredBytes s ++ more ∧ ∀ x ∈ more, x.1 = .files := by
  unfold Delivery.getData
  split
  · exact ⟨[], (List.append_nil _).symm, fun _ hx => absurd hx List.not_mem_nil⟩
  · split
    · exact ⟨[], (List.append_nil _).symm, fun _ hx => absurd hx List.not_mem_nil⟩
    · obtain ⟨more, hmore, hfiles⟩ := offeredBytes_promoted s request.promoted
      refine ⟨more, ?_, hfiles⟩
      rw [← hmore]
      exact offeredBytes_drainLoop request.size ⟨s.promote request.promoted, 0, [], []⟩

theorem insertIdentity_driver (s : System) (pid : UInt32) (createTime : UInt64) (allocated : Bool) :
    (s.insertIdentity pid createTime allocated).driver = s.driver := by
  unfold System.insertIdentity
  dsimp only
  split <;> rfl

/-- One more record is offered, if there was memory for it, and it is not the registry's. -/
def OffersOther (d d' : Driver) : Prop :=
  ∃ record emission stamp, d' = d.emit .items record ∧ (∀ r ∈ record, r.bytes = Emission.record stamp emission) ∧
    isRegistry (emission.expected stamp) = false

theorem OffersOther.lost {d d' : Driver} (h : d' = d.emit .items none) : OffersOther d d' :=
  ⟨none, .processExited 0 0, ⟨0, 0⟩, h, fun _ hr => absurd hr (Option.not_mem_none _), rfl⟩

theorem OffersOther.pushed {d : Driver} {s : System} (hdriver : s.driver = d) {e : Emission} {t : Stamp}
    (hother : isRegistry (e.expected t) = false) : OffersOther d (s.pushRecord (e.record t)).driver := by
  refine ⟨some ⟨s.nextSequence + 1, e.record t⟩, e, t, ?_, ?_, hother⟩
  · rw [← hdriver]
    rfl
  · intro r hr
    rw [← Option.some.inj hr]

theorem onProcessNotifyCreate_driver (upcase : UInt16 → UInt16) (s : System) (pid : UInt32) (info : CreateInfo)
    (time tick : UInt64) (pool : Pool) :
    OffersOther s.driver (onProcessNotifyCreate upcase s pid info time tick pool).driver := by
  unfold onProcessNotifyCreate
  split
  · exact .lost rfl
  · show OffersOther s.driver ((s.insertIdentity pid time pool.identity).pushRecord
      (Emission.record (s.stamp time)
        (.processCreated pid info.parentProcessId info.commandLine info.imageFileName))).driver
    exact .pushed (insertIdentity_driver s pid time pool.identity) rfl

theorem onProcessNotifyExit_driver (s : System) (pid : UInt32) (time : UInt64) (allocated : Bool) :
    OffersOther s.driver (onProcessNotifyExit s pid time allocated).driver := by
  have hmiss : (if s.identities.lookup pid = 0 then s.nextIdentityMiss else s).driver = s.driver := by
    split <;> rfl
  unfold onProcessNotifyExit
  dsimp only
  generalize (if s.identities.lookup pid = 0 then s.nextIdentityMiss else s) = missed at hmiss ⊢
  split
  · exact .lost (congrArg (fun d : Driver => d.emit .items none) hmiss)
  · show OffersOther s.driver (System.pushRecord _
      (Emission.record ⟨missed.nextSequence + 1, time⟩ (.processExited pid (s.identities.lookup pid)))).driver
    exact .pushed hmiss rfl

theorem onThreadNotify_driver (s : System) (pid threadId : UInt32) (create : Bool) (thread : Option ℕ)
    (time : UInt64) (allocated : Bool) :
    OffersOther s.driver (onThreadNotify s pid threadId create thread time allocated).driver := by
  unfold onThreadNotify
  split
  · exact .lost rfl
  · cases create with
    | false => exact .pushed (s := s) (e := .threadExited pid threadId (s.identities.lookup pid)) rfl rfl
    | true =>
      have hpushed := OffersOther.pushed (s := s) rfl (e := .threadCreated pid threadId (s.identities.lookup pid))
        (t := s.stamp time) rfl
      cases thread with
      | none => exact hpushed
      | some thread => exact hpushed

/-- The other callbacks offer at most one record each, and none of them is the registry's. -/
theorem notify_driver (upcase : UInt16 → UInt16) (s : System) (notification : Notification) :
    (Notify.step upcase s notification).driver = s.driver ∨
      OffersOther s.driver (Notify.step upcase s notification).driver := by
  cases notification with
  | processCreated pid info time tick pool =>
    exact .inr (onProcessNotifyCreate_driver upcase s pid info time tick pool)
  | processExited pid time allocated => exact .inr (onProcessNotifyExit_driver s pid time allocated)
  | thread pid threadId create found time allocated =>
    exact .inr (onThreadNotify_driver s pid threadId create found time allocated)
  | attempt k lookupOk queueOk => exact .inl rfl
  | fixup k => exact .inl rfl

theorem adds_step (upcase : UInt16 → UInt16) (s : Watcher) (op : WatcherOp) : Adds s (watcherStep upcase s op) := by
  cases op with
  | enter operation path =>
    show Adds s (s.enter operation path)
    obtain he | ⟨name, -, he⟩ := enter_cases s operation path
    · rw [he]
      exact .nothing rfl rfl
    · rw [he]
      exact .nothing rfl rfl
  | emit k time allocated =>
    show Adds s (s.emit upcase k time allocated)
    obtain he | ⟨operation, name, path, -, ⟨-, he⟩ | ⟨emission, hemission, he⟩⟩ := emit_cases upcase s k time allocated
    · rw [he]
      exact .nothing rfl rfl
    · rw [he]
      exact .nothing rfl rfl
    · rw [he]
      have hregistry := emission_isRegistry hemission (s.system.stamp time)
      cases allocated with
      | false => exact Adds.report (r := none) rfl rfl rfl hregistry
      | true =>
        exact Adds.report (r := some ⟨s.system.nextSequence + 1, emission.record (s.system.stamp time)⟩) rfl rfl rfl
          hregistry
  | release k =>
    show Adds s (s.release k)
    obtain he | ⟨operation, name, path, -, he⟩ := release_cases s k
    · rw [he]
      exact .nothing rfl rfl
    · rw [he]
      exact .nothing rfl rfl
  | notify notification =>
    obtain he | ⟨record, emission, stamp, he, hbytes, hother⟩ := notify_driver upcase s.system notification
    · exact .nothing he rfl
    · exact .record he rfl hbytes hother
  | getData request =>
    obtain ⟨more, hmore, hfiles⟩ := offeredBytes_getData s.system.driver request
    have hother : ∀ x ∈ more, x.1 ≠ QueueClass.items := by
      intro x hx
      rw [hfiles x hx]
      decide
    refine ⟨more, [], hmore, (List.append_nil _).symm, ?_, fun x hx hitems => absurd hitems (hother x hx)⟩
    exact List.filterMap_eq_nil_iff.mpr fun x hx => registryRecord_other (hother x hx) x.2

/-! ## Runs -/

/-- The books of the queues, and what the registry's callbacks put on them. -/
structure Recorded (s : Watcher) : Prop where
  chained : Chained s.system.driver
  counted : Counted s.system.driver
  batched : Batched s.system.driver
  skips : SkipsOversized s.system.driver
  told : (offeredBytes s.system.driver).filterMap registryRecord = reported s
  small : ∀ x ∈ offeredBytes s.system.driver, x.1 = .items → x.2.length ≤ maxRecordBytes

theorem reported_append {s s' : Watcher} {added : List RegReport} (h : s'.reports = s.reports ++ added) :
    reported s' = reported s ++ (added.filter (·.allocated)).map reportMeaning := by
  unfold reported
  rw [h, List.filter_append, List.map_append]

/-- Of a step the driver sees at most one operation. -/
theorem watcherStep_driver (upcase : UInt16 → UInt16) (s : Watcher) (op : WatcherOp) :
    (watcherStep upcase s op).system.driver = s.system.driver ∨
      ∃ driverOp, (watcherStep upcase s op).system.driver = Delivery.step s.system.driver driverOp := by
  cases op with
  | enter operation path =>
    left
    show (s.enter operation path).system.driver = _
    obtain he | ⟨name, -, he⟩ := enter_cases s operation path <;> rw [he]
  | emit k time allocated =>
    show (s.emit upcase k time allocated).system.driver = _ ∨
      ∃ driverOp, (s.emit upcase k time allocated).system.driver = _
    obtain he | ⟨operation, name, path, -, ⟨-, he⟩ | ⟨emission, -, he⟩⟩ := emit_cases upcase s k time allocated
    · exact .inl (by rw [he])
    · exact .inl (by rw [he]; rfl)
    · rw [he]
      cases allocated with
      | false => exact .inr ⟨.emit .items none, rfl⟩
      | true =>
        exact .inr ⟨.emit .items (some ⟨s.system.nextSequence + 1, emission.record (s.system.stamp time)⟩), rfl⟩
  | release k =>
    left
    show (s.release k).system.driver = _
    obtain he | ⟨operation, name, path, -, he⟩ := release_cases s k
    · rw [he]
    · rw [he]
      rfl
  | notify notification =>
    obtain he | ⟨record, -, -, he, -, -⟩ := notify_driver upcase s.system notification
    · exact .inl he
    · exact .inr ⟨.emit .items record, he⟩
  | getData request => exact .inr ⟨.getData request, rfl⟩

/-- What an operation keeps of the driver, a step keeps. -/
theorem watcherStep_keeps {upcase : UInt16 → UInt16} {s : Watcher} {I : Driver → Prop} (hs : I s.system.driver)
    (hstep : ∀ driverOp, I (Delivery.step s.system.driver driverOp)) (op : WatcherOp) :
    I (watcherStep upcase s op).system.driver := by
  obtain he | ⟨driverOp, he⟩ := watcherStep_driver upcase s op
  · rw [he]
    exact hs
  · rw [he]
    exact hstep driverOp

theorem Recorded.step {upcase : UInt16 → UInt16} {s : Watcher} (h : Recorded s) (op : WatcherOp) :
    Recorded (watcherStep upcase s op) := by
  obtain ⟨more, added, hoffers, hreports, hregistry, hsmall⟩ := adds_step upcase s op
  constructor
  · exact watcherStep_keeps h.chained (chained_stepClosed.step h.chained) op
  · exact watcherStep_keeps h.counted (counted_stepClosed.step h.counted) op
  · exact watcherStep_keeps h.batched h.batched.step op
  · exact watcherStep_keeps h.skips h.skips.step op
  · rw [hoffers, List.filterMap_append, h.told, hregistry, reported_append hreports]
  · intro x hx
    rw [hoffers] at hx
    rcases List.mem_append.mp hx with hold | hnew
    · exact h.small x hold
    · exact hsmall x hnew

theorem init_recorded (upcase : UInt16 → UInt16) (policy : Injection.Policy) (protectedNames : List (List UInt16))
    (ops : List WatcherOp) : Recorded (run (watcherStep upcase) (.init policy protectedNames) ops) := by
  refine run_invariant (I := Recorded) (fun _ op h => h.step op) ?_ ops
  exact ⟨chained_init, counted_init, batched_init, fun x hx => absurd hx List.not_mem_nil, rfl,
    fun x hx => absurd hx List.not_mem_nil⟩

theorem offered_registryRecords (s : Driver) :
    registryRecords s.offered = (offeredBytes s).filterMap registryRecord := by
  unfold registryRecords offeredBytes Driver.offered
  rw [List.filterMap_map, List.filterMap_map]
  rfl

theorem registryRecords_append (items more : List (QueueClass × Item)) :
    registryRecords (items ++ more) = registryRecords items ++ registryRecords more := List.filterMap_append

theorem registryRecords_items (items : List (QueueClass × Item)) :
    registryRecords (items.filter fun x => x.1 = .items) = registryRecords items := by
  unfold registryRecords
  rw [List.filterMap_filter]
  congr 1
  funext x
  by_cases hx : x.1 = .items
  · rw [if_pos (decide_eq_true hx)]
  · rw [if_neg (by simpa using hx), registryRecord_other hx]

/-- No registry record is among those skipped or refused. -/
theorem Recorded.lost_nil {s : Watcher} (h : Recorded s) {items : List (QueueClass × Item)}
    (hoffered : items ⊆ s.system.driver.offered)
    (hlost : ∀ x ∈ items, maxRecordBytes < x.2.size ∨ x.1 = .drops) : registryRecords items = [] := by
  refine List.filterMap_eq_nil_iff.mpr ?_
  intro x hx
  refine registryRecord_other ?_ _
  intro hitems
  obtain hlarge | hdrops := hlost x hx
  · have hmem : (x.1, x.2.bytes) ∈ offeredBytes s.system.driver := by
      obtain ⟨offer, hoffer, rfl⟩ := List.mem_map.mp (hoffered hx)
      exact List.mem_map_of_mem (f := fun offer : Offer => (offer.cls, offer.item.bytes)) hoffer
    exact absurd (h.small _ hmem hitems) (Nat.not_le_of_lt hlarge)
  · rw [hdrops] at hitems
    cases hitems

/-- Over any interleaving of registry callbacks, process and thread callbacks and requests: each name the system
handed out is held by one callback or was given back, once. A callback past its record made one report if its operation
succeeded on a key of the machine whose name it got (and, for a value, data was there), and none otherwise; the report
carries the identity its process then had. The registry records the agent reads are the reports that got memory,
in order, but for those that wait or were evicted. -/
theorem registry_observed (upcase : UInt16 → UInt16) (policy : Injection.Policy)
    (protectedNames : List (List UInt16)) (ops : List WatcherOp) :
    let s := run (watcherStep upcase) (.init policy protectedNames) ops
    let read := registryRecords (s.system.driver.history.batches.flatMap Batch.records)
    (s.held ++ s.released).Perm (List.range s.handedOut) ∧
    (s.reports.map RegReport.callback).Nodup ∧
    (∀ k, k ∈ s.reports.map RegReport.callback ↔
      ∃ callback, s.callbacks[k]? = some callback ∧ callback.phase ≠ .named ∧ callback.Observed upcase) ∧
    (∀ r ∈ s.reports, ∃ callback table, s.callbacks[r.callback]? = some callback ∧
      TableAt upcase (.init policy protectedNames) ops r.callback table ∧ callback.Tells upcase table r.emission) ∧
    read.Sublist (reported s) ∧
    (reported s).Perm (read ++ registryRecords s.system.driver.linked ++
      registryRecords (s.system.driver.departedBy .evicted)) := by
  intro s read
  have hreporting : s.Reporting upcase _ := init_reporting policy protectedNames ops
  have hrecorded : Recorded s := init_recorded upcase policy protectedNames ops
  have hconserved := hrecorded.chained.conserved
  have htold : registryRecords s.system.driver.offered = reported s :=
    (offered_registryRecords _).trans hrecorded.told
  refine ⟨init_handed policy protectedNames ops, hreporting.once, hreporting.settled, ?_, ?_, ?_⟩
  · intro r hr
    obtain ⟨callback, hcallback, table, htable, htells⟩ := hreporting.tells r hr
    exact ⟨callback, table, hcallback, htable, htells⟩
  · have hsublist := (hrecorded.chained.delivered_sublist .items).filterMap fun x => registryRecord (x.1, x.2.bytes)
    rw [← hrecorded.batched.delivered] at hsublist
    have hboth : (registryRecords _).Sublist (registryRecords _) := hsublist
    rw [registryRecords_items, registryRecords_items, htold] at hboth
    exact hboth
  · have hskipped : registryRecords (s.system.driver.departedBy .skipped) = [] :=
      hrecorded.lost_nil (fun x hx => hconserved.mem_iff.mpr (List.mem_append_right _ hx))
        fun x hx => .inl (hrecorded.skips x hx)
    have hrefused : registryRecords s.system.driver.refused = [] :=
      hrecorded.lost_nil (fun x hx => hconserved.mem_iff.mpr (by simp [hx]))
        fun x hx => .inr (hrecorded.counted.refusedDrops x hx)
    have hperm : (registryRecords s.system.driver.offered).Perm (registryRecords _) := hconserved.filterMap _
    rw [registryRecords_append, registryRecords_append, registryRecords_append, registryRecords_append, hskipped,
      hrefused, List.append_nil, List.append_nil, ← hrecorded.batched.delivered, htold] at hperm
    exact hperm

end SecOutfall.RegistryEvents
