import Mathlib.Algebra.Ring.Nat
import Mathlib.Data.List.Dedup
import Mathlib.Data.List.Induction
import Mathlib.Data.List.Perm.Subperm
import SecOutfall.Agent.DriverSource
import SecOutfall.Agent.Scope
import SecOutfall.Agent.SourceEnvelope
import SecOutfall.Foundations.AssocList
import SecOutfall.Wire.Decode

/-! From driver records to source events: `map_record` of `adapters/driving/driver_event_source.rs`, with the cache
of process names it keeps because an exit record carries none. -/
namespace SecOutfall.Agent
open AssocList
set_option autoImplicit false

/-! ## The name cache -/

def nameCacheCap : ℕ := 4096

/-- `names` is the hash map; the device handle and the offset flag are in `DriverSource`. -/
structure DrainContext where
  names : List (UInt32 × String)
  deriving DecidableEq, Repr

namespace DrainContext

def opened : DrainContext := ⟨[]⟩

def nameFor (context : DrainContext) (pid : UInt32) : String := (context.names.lookup pid).getD "<unknown>"

/-- Bounded by a reset, whether or not the pid is there. -/
def rememberName (context : DrainContext) (pid : UInt32) (name : Option String) : DrainContext :=
  let names := if nameCacheCap ≤ context.names.length then [] else context.names
  ⟨upsert pid (fun _ => name.getD "<unnamed>") names⟩

end DrainContext

/-! ## The mapping -/

def nameFrom : Option String → String
  | none => "<unknown>"
  | some path => imageName path

def registryTypeName (dataType : UInt32) : String :=
  match dataType.toNat with
  | 1 => "REG_SZ"
  | 2 => "REG_EXPAND_SZ"
  | 3 => "REG_BINARY"
  | 4 => "REG_DWORD"
  | 5 => "REG_DWORD_BIG_ENDIAN"
  | 6 => "REG_LINK"
  | 7 => "REG_MULTI_SZ"
  | 8 => "REG_RESOURCE_LIST"
  | 9 => "REG_FULL_RESOURCE_DESCRIPTOR"
  | 10 => "REG_RESOURCE_REQUIREMENTS_LIST"
  | 11 => "REG_QWORD"
  | other => "REG_" ++ toString other

/-- `u32::try_from(data.len()).unwrap_or(0)`. -/
def dataSize (data : List UInt8) : UInt32 := if data.length < 2 ^ 32 then .ofNat data.length else 0

/-- A captured drop has no event: the driver preserved the content already. -/
def mapRecord (record : Wire.Record) (context : DrainContext) : Option SourceWire.SourceEvent × DrainContext :=
  let pid := record.pid
  match record.payload with
  | .processCreated parentPid commandLine imageName =>
    let name := nameFrom imageName
    (some ⟨.processStarted, (pid, some parentPid, name, imageName, commandLine, none, ())⟩,
      context.rememberName pid (some name))
  | .processExited => (some ⟨.processStopped, (pid, context.nameFor pid, ())⟩, context)
  | .thread threadId =>
    -- one payload for both directions
    if record.kind = .threadExited then (some ⟨.threadStopped, (pid, threadId, ())⟩, context)
    else (some ⟨.threadStarted, (pid, threadId, none, ())⟩, context)
  | .imageLoaded _ _ name => (some ⟨.imageLoaded, (pid, nameFrom name, name, none, none, ())⟩, context)
  | .registryKeyCreated path => (some ⟨.registryKeyCreated, (pid, path, none, ())⟩, context)
  | .registryKeyDeleted path => (some ⟨.registryKeyDeleted, (pid, path, none, ())⟩, context)
  | .registrySetValue keyPath valueName dataType data =>
    (some ⟨.registryValueSet,
      (pid, keyPath, some valueName, none, some (registryTypeName dataType), some (dataSize data), ())⟩, context)
  | .fileCreated path => (some ⟨.fileCreated, (pid, none, some path, none, none, ())⟩, context)
  | .fileWritten offset bytes path =>
    (some ⟨.fileWritten, (pid, none, none, some path, some bytes.toUInt64, some offset, ())⟩, context)
  | .fileCleanedUp path => (some ⟨.fileCleanedUp, (pid, none, none, some path, ())⟩, context)
  | .fileDeleted path => (some ⟨.fileDeleted, (pid, none, none, some path, ())⟩, context)
  | .fileRenamed oldPath newPath =>
    (some ⟨.fileRenamed, (pid, none, some oldPath, some newPath, none, ())⟩, context)
  | .behaviorCall threadId api arg0 arg1 arg2 arg3 =>
    (some ⟨.behaviorCall, (pid, threadId, api, arg0, arg1, arg2, arg3, ())⟩, context)
  | .protectionEvent protectedPid _ targetIsThread originalAccess strippedAccess =>
    (some ⟨.protectionStripped, (pid, protectedPid, targetIsThread, originalAccess, strippedAccess, ())⟩, context)
  | .dropCaptured _ _ _ => (none, context)

/-- The events of the records, in order, the context handed on from record to record. -/
def mapRecords : DrainContext → List Wire.Record → List SourceWire.SourceEvent
  | _, [] => []
  | context, record :: records =>
    let (event, context) := mapRecord record context
    event.toList ++ mapRecords context records

def contextAfter (records : List Wire.Record) : DrainContext :=
  records.foldl (fun context record => (mapRecord record context).2) .opened

/-! ## What has an event -/

theorem mapRecord_isSome (record : Wire.Record) (context : DrainContext) :
    (mapRecord record context).1.isSome = mapsToSource record.payload := by
  unfold mapRecord
  cases record.payload with
  | thread threadId =>
    dsimp only
    split <;> rfl
  | _ => rfl

/-- What has no event leaves the context alone. -/
theorem mapRecord_unmapped {record : Wire.Record} (h : mapsToSource record.payload = false) (context : DrainContext) :
    mapRecord record context = (none, context) := by
  unfold mapRecord
  cases hpayload : record.payload with
  | dropCaptured path storedName method => rfl
  | _ => simp [hpayload, mapsToSource] at h

theorem mapRecords_cons (context : DrainContext) (record : Wire.Record) (records : List Wire.Record) :
    mapRecords context (record :: records) =
      (mapRecord record context).1.toList ++ mapRecords (mapRecord record context).2 records := rfl

theorem mapRecords_append (context : DrainContext) (records more : List Wire.Record) :
    mapRecords context (records ++ more) = mapRecords context records ++
      mapRecords (records.foldl (fun context record => (mapRecord record context).2) context) more := by
  induction records generalizing context with
  | nil => rfl
  | cons record records ih =>
    rw [List.cons_append, mapRecords_cons, ih, mapRecords_cons, List.append_assoc, List.foldl_cons]

/-- Records without an event may as well not be there. -/
theorem mapRecords_filter (context : DrainContext) (records : List Wire.Record) :
    mapRecords context (records.filter fun record => mapsToSource record.payload) = mapRecords context records := by
  induction records generalizing context with
  | nil => rfl
  | cons record records ih =>
    cases hmaps : mapsToSource record.payload with
    | true => rw [List.filter_cons, hmaps, if_pos rfl, mapRecords_cons, mapRecords_cons, ih]
    | false =>
      rw [List.filter_cons, hmaps, if_neg Bool.false_ne_true, ih, mapRecords_cons, mapRecord_unmapped hmaps]
      rfl

/-! ## What a name rests on -/

/-- The process starts among the records, with the names that go out. -/
def starts (records : List Wire.Record) : List (UInt32 × String) :=
  records.filterMap fun record =>
    match record.payload with
    | .processCreated _ _ imageName => some (record.pid, nameFrom imageName)
    | _ => none

def latest (starts : List (UInt32 × String)) (pid : UInt32) : Option String := starts.reverse.lookup pid

def pids (starts : List (UInt32 × String)) : List UInt32 := (starts.map (·.1)).dedup

def keep (kept : List (UInt32 × String)) (start : UInt32 × String) : List (UInt32 × String) :=
  if nameCacheCap ≤ (pids kept).length then [start] else kept ++ [start]

/-- The starts since the cache was last reset. -/
def sinceReset (starts : List (UInt32 × String)) : List (UInt32 × String) := starts.foldl keep []

theorem latest_concat (starts : List (UInt32 × String)) (start : UInt32 × String) (pid : UInt32) :
    latest (starts ++ [start]) pid = if pid = start.1 then some start.2 else latest starts pid := by
  unfold latest
  rw [List.reverse_append, List.reverse_singleton, List.singleton_append, List.lookup_cons]
  by_cases hpid : pid = start.1
  · simp [hpid]
  · rw [if_neg hpid, beq_false_of_ne hpid]

theorem latest_isSome (starts : List (UInt32 × String)) (pid : UInt32) :
    (latest starts pid).isSome ↔ pid ∈ starts.map (·.1) := by
  unfold latest
  rw [← mem_keys_iff, List.map_reverse, List.mem_reverse]

theorem latest_append_of_some {starts more : List (UInt32 × String)} {pid : UInt32} {name : String}
    (h : latest more pid = some name) : latest (starts ++ more) pid = some name := by
  unfold latest at h ⊢
  rw [List.reverse_append, List.lookup_append, h]
  rfl

theorem starts_concat (records : List Wire.Record) (record : Wire.Record) :
    starts (records ++ [record]) = starts records ++ starts [record] := List.filterMap_append

theorem sinceReset_concat (starts : List (UInt32 × String)) (start : UInt32 × String) :
    sinceReset (starts ++ [start]) = keep (sinceReset starts) start := by
  unfold sinceReset
  rw [List.foldl_append]
  rfl

theorem sinceReset_suffix (starts : List (UInt32 × String)) : sinceReset starts <:+ starts := by
  induction starts using List.reverseRecOn with
  | nil => exact List.suffix_rfl
  | append_singleton starts start ih =>
    rw [sinceReset_concat, keep]
    split
    · exact List.suffix_append starts [start]
    · obtain ⟨before, hbefore⟩ := ih
      refine ⟨before, ?_⟩
      rw [← List.append_assoc, hbefore]

theorem mem_pids {starts : List (UInt32 × String)} {pid : UInt32} : pid ∈ pids starts ↔ pid ∈ starts.map (·.1) :=
  List.mem_dedup

theorem pids_nodup (starts : List (UInt32 × String)) : (pids starts).Nodup := List.nodup_dedup _

theorem pids_length_mono {few many : List (UInt32 × String)} (h : few ⊆ many) :
    (pids few).length ≤ (pids many).length := by
  refine ((pids_nodup few).subperm fun pid hpid => ?_).length_le
  obtain ⟨start, hstart, rfl⟩ := List.mem_map.mp (mem_pids.mp hpid)
  exact mem_pids.mpr (List.mem_map_of_mem (h hstart))

theorem pids_concat_length (starts : List (UInt32 × String)) (start : UInt32 × String) :
    (pids (starts ++ [start])).length ≤ (pids starts).length + 1 := by
  have hsub : pids (starts ++ [start]) ⊆ start.1 :: pids starts := by
    intro pid hpid
    rw [mem_pids, List.map_append, List.mem_append] at hpid
    obtain hold | hnew := hpid
    · exact List.mem_cons_of_mem _ (mem_pids.mpr hold)
    · exact List.mem_cons.mpr (.inl (List.mem_singleton.mp hnew))
  exact ((pids_nodup _).subperm hsub).length_le

/-- There is no reset before a start finds the bound reached. -/
theorem sinceReset_all {starts : List (UInt32 × String)} (h : (pids starts.dropLast).length < nameCacheCap) :
    sinceReset starts = starts := by
  induction starts using List.reverseRecOn with
  | nil => rfl
  | append_singleton starts start ih =>
    rw [List.dropLast_concat] at h
    have hfew : (pids starts.dropLast).length < nameCacheCap :=
      (pids_length_mono (List.dropLast_subset starts)).trans_lt h
    rw [sinceReset_concat, ih hfew, keep, if_neg (not_le.mpr h)]

/-- The cache answers from the kept starts. -/
structure Caches (context : DrainContext) (kept : List (UInt32 × String)) : Prop where
  nodup : (context.names.map (·.1)).Nodup
  lookup : ∀ pid, context.names.lookup pid = latest kept pid

theorem Caches.length {context : DrainContext} {kept : List (UInt32 × String)} (h : Caches context kept) :
    context.names.length = (pids kept).length := by
  have hperm : (context.names.map (·.1)).Perm (pids kept) := by
    rw [List.perm_ext_iff_of_nodup h.nodup (pids_nodup kept)]
    intro pid
    rw [mem_keys_iff, h.lookup, latest_isSome, mem_pids]
  rw [← hperm.length_eq, List.length_map]

theorem caches_nil : Caches ⟨[]⟩ [] := ⟨List.nodup_nil, fun _ => rfl⟩

theorem Caches.upsert {names : List (UInt32 × String)} {kept : List (UInt32 × String)} (h : Caches ⟨names⟩ kept)
    (start : UInt32 × String) : Caches ⟨AssocList.upsert start.1 (fun _ => start.2) names⟩ (kept ++ [start]) := by
  refine ⟨?_, fun pid => ?_⟩
  · rw [keys_upsert]
    split
    · exact h.nodup
    · rename_i hfresh
      refine List.nodup_append.mpr ⟨h.nodup, List.nodup_singleton _, fun pid hpid other hother => ?_⟩
      rw [List.mem_singleton.mp hother]
      rintro rfl
      exact hfresh hpid
  · rw [lookup_upsert, latest_concat]
    split
    · rfl
    · exact h.lookup pid

theorem Caches.rememberName {context : DrainContext} {kept : List (UInt32 × String)} (h : Caches context kept)
    (pid : UInt32) (name : String) : Caches (context.rememberName pid (some name)) (keep kept (pid, name)) := by
  unfold DrainContext.rememberName keep
  rw [h.length]
  split
  · exact caches_nil.upsert (pid, name)
  · exact h.upsert (pid, name)

theorem Caches.mapRecord {context : DrainContext} {begun : List (UInt32 × String)}
    (h : Caches context (sinceReset begun)) (record : Wire.Record) :
    Caches (Agent.mapRecord record context).2 (sinceReset (begun ++ starts [record])) := by
  unfold Agent.mapRecord starts
  cases hpayload : record.payload with
  | processCreated parentPid commandLine imageName =>
    have hkept := h.rememberName record.pid (nameFrom imageName)
    rw [List.filterMap_cons, hpayload, List.filterMap_nil, sinceReset_concat]
    exact hkept
  | thread threadId =>
    have hsame : (List.filterMap (fun record : Wire.Record => match record.payload with
        | .processCreated _ _ imageName => some (record.pid, nameFrom imageName)
        | _ => none) [record]) = [] := by simp [hpayload]
    rw [hsame, List.append_nil]
    dsimp only
    split <;> exact h
  | _ => simpa [hpayload] using h

theorem caches_contextAfter (records : List Wire.Record) :
    Caches (contextAfter records) (sinceReset (starts records)) := by
  induction records using List.reverseRecOn with
  | nil => exact caches_nil
  | append_singleton records record ih =>
    have hafter : contextAfter (records ++ [record]) = (mapRecord record (contextAfter records)).2 := by
      unfold contextAfter
      rw [List.foldl_append]
      rfl
    rw [hafter, starts_concat]
    exact ih.mapRecord record

/-- A process leaves under the name of the latest start of its pid since the cache was last reset, and as unknown if
there was none. That is never another name than its latest start had, and before 4096 pids were started no start is
forgotten. -/
theorem stopped_under_latest_name (records : List Wire.Record) :
    (∀ record : Wire.Record, record.payload = .processExited →
      mapRecords .opened (records ++ [record]) = mapRecords .opened records ++
        [⟨.processStopped, (record.pid, (latest (sinceReset (starts records)) record.pid).getD "<unknown>", ())⟩]) ∧
    (∀ pid name, latest (sinceReset (starts records)) pid = some name → latest (starts records) pid = some name) ∧
    ((pids (starts records).dropLast).length < nameCacheCap → sinceReset (starts records) = starts records) ∧
    (pids (sinceReset (starts records))).length ≤ nameCacheCap := by
  have hcaches := caches_contextAfter records
  refine ⟨?_, ?_, sinceReset_all, ?_⟩
  · intro record hexited
    have hname : (contextAfter records).nameFor record.pid =
        (latest (sinceReset (starts records)) record.pid).getD "<unknown>" := by
      rw [DrainContext.nameFor, hcaches.lookup]
    rw [mapRecords_append, ← hname]
    simp only [mapRecords, mapRecord, hexited]
    rfl
  · intro pid name hname
    obtain ⟨before, hbefore⟩ := sinceReset_suffix (starts records)
    rw [← hbefore]
    exact latest_append_of_some hname
  · induction (starts records) using List.reverseRecOn with
    | nil => exact Nat.zero_le _
    | append_singleton begun start ih =>
      rw [sinceReset_concat, keep]
      split
      · exact (pids_concat_length [] start).trans (by simp [pids, nameCacheCap])
      · rename_i hroom
        have hone := pids_concat_length (sinceReset begun) start
        omega

end SecOutfall.Agent
