import SecOutfall.Delivery.Conservation
import SecOutfall.Wire.Records

/-! Who owns a record's block.

A block is live from `ExAllocatePool2` to `ExFreePool`. Every path that removes a record from a
queue frees its block; the path that refuses one does not, and `DriverUnload` only frees what the
queues still link. -/
namespace SecOutfall.Delivery
open Runs
set_option autoImplicit false

namespace Driver

def live (s : Driver) : List Item := s.history.allocated.filter fun item => item ∉ s.history.freed

def linkedItems (s : Driver) : List Item := s.linked.map Prod.snd

/-! ## Unloading -/

def freeAllBody (c : QueueClass) (s : Driver) : Option Driver :=
  match (s.queue c).pop with
  | none => none
  | some (item, q) => some ((s.setQueue c q).exFreePool item)

def freeAll (s : Driver) (c : QueueClass) : Driver :=
  runLoop (freeAllBody c) (s.queue c).items.length s

def unload (s : Driver) : Driver := ((s.freeAll .items).freeAll .files).freeAll .drops

theorem freeAll_spec (s : Driver) (c : QueueClass) :
    (s.freeAll c).history.freed = s.history.freed ++ (s.queue c).items ∧
      (s.freeAll c).history.allocated = s.history.allocated ∧
      ∀ c', c' ≠ c → (s.freeAll c).queue c' = s.queue c' := by
  unfold freeAll
  generalize hitems : (s.queue c).items = items
  induction items generalizing s with
  | nil => exact ⟨(List.append_nil _).symm, rfl, fun _ _ => rfl⟩
  | cons item items ih =>
    have hpop : (s.queue c).pop = some (item, (s.queue c).removeHead) := by simp [Queue.pop, hitems]
    have hrest : (((s.setQueue c (s.queue c).removeHead).exFreePool item).queue c).items = items := by
      simp [exFreePool, Queue.removeHead, hitems]
    obtain ⟨hfreed, halloc, hqueue⟩ := ih _ hrest
    simp only [List.length_cons, runLoop, freeAllBody, hpop]
    refine ⟨?_, halloc, fun c' hc => (hqueue c' hc).trans (s.setQueue_of_ne _ hc)⟩
    rw [hfreed]
    simp [exFreePool, setQueue]

theorem unload_spec (s : Driver) :
    s.unload.history.freed = s.history.freed ++ s.linkedItems ∧
      s.unload.history.allocated = s.history.allocated := by
  obtain ⟨hf, ha, hq⟩ := s.freeAll_spec .items
  obtain ⟨hf', ha', hq'⟩ := (s.freeAll .items).freeAll_spec .files
  obtain ⟨hf'', ha'', -⟩ := ((s.freeAll .items).freeAll .files).freeAll_spec .drops
  refine ⟨?_, ha''.trans (ha'.trans ha)⟩
  rw [unload, hf'', hf', hf, hq' .drops (by decide), hq .drops (by decide), hq .files (by decide)]
  simp [linkedItems, linked, queues, List.map_map, Function.comp_def]

end Driver

/-! ## The ownership discipline -/

/-- Live blocks are the linked ones, each linked once; every block whose record left its queue or
was refused has been freed once; and unloading leaves nothing. -/
structure Owns (s : Driver) : Prop where
  live_iff : ∀ item, item ∈ s.live ↔ item ∈ s.linkedItems
  linked_nodup : s.linkedItems.Nodup
  freed_once : ∀ item, (item ∈ s.history.departures.map Departure.item ∨
    item ∈ s.refused.map Prod.snd) → s.history.freed.count item = 1
  unloaded : s.unload.live = []

theorem Chained.allocated_perm {s : Driver} (h : Chained s) :
    s.history.allocated.Perm (s.history.freed ++ s.linkedItems ++ s.refused.map Prod.snd) := by
  have hall : s.history.allocated = s.offered.map Prod.snd := by
    rw [h.allocated, Driver.offered, List.map_map]
    rfl
  have hfreed : s.history.freed.Perm ((s.departedBy .delivered ++ s.departedBy .evicted ++
      s.departedBy .skipped).map Prod.snd) := by
    have hd := (departures_perm s).map Prod.snd
    rw [List.map_map] at hd
    rw [h.freed]
    exact hd
  rw [hall]
  apply (h.conserved.map Prod.snd).trans
  refine List.Perm.trans ?_ ((hfreed.append_right s.linkedItems).append_right _).symm
  rw [List.perm_iff_count]
  intro x
  simp only [Driver.linkedItems, List.map_append, List.count_append]
  omega

theorem Chained.allocated_nodup {s : Driver} (h : Chained s) : s.history.allocated.Nodup :=
  List.Nodup.of_map _ (h.ids ▸ List.nodup_range)

/-- A refused block is never freed: the discipline holds exactly when nothing was refused. -/
theorem Chained.owns_iff {s : Driver} (h : Chained s) : Owns s ↔ s.refused = [] := by
  have hperm := h.allocated_perm
  have hnodup := hperm.nodup_iff.mp h.allocated_nodup
  obtain ⟨hfl, hrefused, hdisj⟩ := List.nodup_append.mp hnodup
  obtain ⟨hfreed, hlinked, hfdisj⟩ := List.nodup_append.mp hfl
  constructor
  · intro hown
    rw [List.eq_nil_iff_forall_not_mem]
    intro x hx
    have hmem : x.2 ∈ s.refused.map Prod.snd := List.mem_map_of_mem hx
    have hcount := hown.freed_once x.2 (Or.inr hmem)
    have hin : x.2 ∈ s.history.freed := List.count_pos_iff.mp (by omega)
    exact hdisj x.2 (List.mem_append_left _ hin) x.2 hmem rfl
  · intro hnil
    rw [hnil, List.map_nil, List.append_nil] at hperm
    refine ⟨fun item => ?_, hlinked, fun item hitem => ?_, ?_⟩
    · have hmem := hperm.mem_iff (a := item)
      rw [List.mem_append] at hmem
      simp only [Driver.live, List.mem_filter, hmem, decide_eq_true_eq]
      constructor
      · rintro ⟨hf | hl, hnot⟩
        · exact absurd hf hnot
        · exact hl
      · intro hl
        exact ⟨Or.inr hl, fun hf => hfdisj item hf item hl rfl⟩
    · have hin : item ∈ s.history.freed := by
        rw [h.freed]
        rcases hitem with hd | hr
        · exact hd
        · simp [hnil] at hr
      exact List.count_eq_one_of_mem hfreed hin
    · obtain ⟨hf, ha⟩ := s.unload_spec
      rw [Driver.live, hf, ha, List.filter_eq_nil_iff]
      intro item hitem
      simpa [or_iff_not_imp_left] using hperm.mem_iff.mp hitem

/-! ## Refusals along a run -/

/-- The operation is a drop emission that finds the drops queue full. -/
def Refuses (s : Driver) : Op → Prop
  | .emit .drops (some _) => (s.queue .drops).items.length = capacity .drops
  | _ => False

theorem emit_refused (s : Driver) (c : QueueClass) (record : Option Driver.WireRecord) :
    (s.emit c record).refused = [] ↔ s.refused = [] ∧ ¬ Refuses s (.emit c record) := by
  obtain ⟨rfl, he⟩ | ⟨r, rfl, ⟨rfl, hfull, he⟩ | ⟨q, hq, he⟩ | ⟨hc, old, q, -, he⟩⟩ :=
    emit_cases s c record
  · rw [he]
    cases c <;> simp [Refuses, Driver.refused]
  · rw [he, Driver.refused_refuse]
    simp [Refuses, hfull]
  · rw [he, Driver.refused_link]
    have hlen : (s.queue c).items.length < capacity c := by
      have hb := q.bounded
      rw [hq, List.length_append, List.length_singleton] at hb
      omega
    cases c with
    | items => simp [Refuses]
    | files => simp [Refuses]
    | drops =>
      simp only [Refuses]
      exact (and_iff_left (by omega)).symm
  · rw [he, Driver.refused_linkOver]
    cases c <;> simp_all [Refuses]

theorem promote_refused (s : Driver) (records : List (Option Driver.WireRecord)) :
    (s.promote records).refused = [] ↔ s.refused = [] := by
  induction records generalizing s with
  | nil => rfl
  | cons record records ih =>
    rw [Driver.promote, List.foldl_cons, ← Driver.promote, ih, emit_refused]
    simp [Refuses]

theorem drainLoop_refused (size : ℕ) (d : Drain) :
    (drainLoop size d).driver.refused = d.driver.refused := by
  refine runLoop_invariant (I := fun d' : Drain => d'.driver.refused = d.driver.refused)
    (fun d₁ d₂ h hd => ?_) _ rfl
  obtain ⟨c, hc⟩ := drainBody_popped h
  obtain ⟨item, q, -, ⟨-, rfl⟩ | ⟨-, -, rfl⟩⟩ := popped_cases hc
  · exact hd
  · exact hd

theorem step_refused (s : Driver) (op : Op) :
    (step s op).refused = [] ↔ s.refused = [] ∧ ¬ Refuses s op := by
  cases op with
  | emit c record => exact emit_refused s c record
  | getData request =>
    have hloop := drainLoop_refused request.size ⟨s.promote request.promoted, 0, [], []⟩
    have hprom := promote_refused s request.promoted
    simp only [step, getData, Refuses, not_false_eq_true, and_true]
    split
    · rfl
    · split
      · rfl
      · rw [← hprom]
        exact iff_of_eq (congrArg (· = []) hloop)

theorem run_refused (s : Driver) (ops : List Op) :
    (run step s ops).refused = [] ↔ s.refused = [] ∧ Along step (fun s op => ¬ Refuses s op) s ops := by
  induction ops generalizing s with
  | nil => simp [Along]
  | cons op ops ih => rw [run_cons, ih, step_refused, Along, and_assoc]

/-- The blocks of a run are owned as they should be if and only if no drop record was ever emitted
into a full drops queue. -/
theorem run_owns_iff (ops : List Op) :
    Owns (run step Driver.init ops) ↔ Along step (fun s op => ¬ Refuses s op) Driver.init ops := by
  have hchain : Chained (run step Driver.init ops) := chained_stepClosed.run chained_init ops
  rw [hchain.owns_iff, run_refused]
  exact and_iff_right rfl

/-! ## The leak -/

theorem run_drops_length (s : Driver) (records : List Driver.WireRecord) :
    ((run step s (records.map fun r => .emit .drops (some r))).queue .drops).items.length =
      min ((s.queue .drops).items.length + records.length) (capacity .drops) := by
  induction records generalizing s with
  | nil =>
    have hb := (s.queue .drops).bounded
    simp only [List.map_nil, run_nil, List.length_nil]
    omega
  | cons r records ih =>
    have hb := (s.queue .drops).bounded
    rw [List.map_cons, run_cons, ih, step]
    obtain ⟨hnone, -⟩ | ⟨r', hr, ⟨-, hfull, he⟩ | ⟨q, hq, he⟩ | ⟨hc, -⟩⟩ :=
      emit_cases s .drops (some r)
    · cases hnone
    · rw [he]
      have hsame : ((s.refuse (s.newItem r')).queue .drops).items = (s.queue .drops).items := rfl
      rw [hsame, hfull, List.length_cons]
      omega
    · rw [he]
      have hnew : ((s.link .drops (s.newItem r') q).queue .drops).items = q.items := by
        simp [Driver.link, Driver.noteOffer]
      rw [hnew, hq, List.length_append, List.length_singleton, List.length_cons]
      omega
    · exact absurd rfl hc

def bareDrop (sequence : UInt64) : Driver.WireRecord :=
  ⟨sequence, Wire.emitDropCaptured none none 0 4 0 ⟨sequence, 0⟩⟩

/-- The 513th drop without a drain is refused and its block leaks. -/
theorem full_drops_queue_leaks :
    ¬ Owns (run step Driver.init
      (((List.range 512).map (fun i => bareDrop (.ofNat (i + 1)))).map (fun r => .emit .drops (some r)) ++
        [.emit .drops (some (bareDrop 513))])) := by
  have hchain := chained_stepClosed.run chained_init
    (((List.range 512).map (fun i => bareDrop (.ofNat (i + 1)))).map (fun r => .emit .drops (some r)) ++
      [.emit .drops (some (bareDrop 513))])
  rw [hchain.owns_iff, run_refused, along_append]
  rintro ⟨-, -, hlast, -⟩
  have hlen := run_drops_length Driver.init ((List.range 512).map fun i => bareDrop (.ofNat (i + 1)))
  have hempty : (Driver.init.queue .drops).items.length = 0 := rfl
  rw [List.length_map, List.length_range, hempty, Nat.zero_add] at hlen
  simp only [Refuses] at hlast
  exact hlast (hlen.trans (Nat.min_eq_right (by decide)))

end SecOutfall.Delivery
