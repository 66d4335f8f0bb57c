import SecOutfall.Agent.DriverSource
import SecOutfall.Wire.Extents

/-! The drain walk of `adapters/driving/driver_event_source.rs` against `decode_all`.

The walk resumes behind each sized record, decodable or not; `decode_all` stops at the first error.
A record in front of any tail reads as it does alone, so on a row of sized chunks the walk visits
chunk by chunk. -/
namespace SecOutfall.Agent
open Runs Wire
set_option autoImplicit false

/-! ## Delivering a list of records -/

theorem captureOffset_frame (now : ℤ) (source : DriverSource) (record : Record) :
    ∃ clockOffsetMs offsetCaptured,
      captureOffset now source record = { source with clockOffsetMs, offsetCaptured } := by
  unfold captureOffset
  split <;> exact ⟨_, _, rfl⟩

theorem deliver_frame (now : ℤ) (source : DriverSource) (record : Record) :
    ∃ clockOffsetMs offsetCaptured delivered, deliver now source record =
      { source with clockOffsetMs, offsetCaptured, delivered, decoded := source.decoded + 1 } := by
  obtain ⟨clockOffsetMs, offsetCaptured, heq⟩ := captureOffset_frame now source record
  unfold deliver
  rw [heq]
  simp only
  split <;> exact ⟨_, _, _, rfl⟩

theorem deliver_skipped (now : ℤ) (source : DriverSource) (record : Record) (skipped : ℕ) :
    deliver now { source with skipped } record = { deliver now source record with skipped } := by
  unfold deliver captureOffset
  simp only
  split_ifs <;> rfl

theorem foldl_deliver_skipped (now : ℤ) (source : DriverSource) (records : List Record) (skipped : ℕ) :
    records.foldl (deliver now) { source with skipped } =
      { records.foldl (deliver now) source with skipped } := by
  induction records generalizing source with
  | nil => rfl
  | cons record records ih => rw [List.foldl_cons, List.foldl_cons, deliver_skipped, ih]

theorem deliver_delivered (now : ℤ) (source : DriverSource) (record : Record) :
    (deliver now source record).delivered.map Prod.fst =
      source.delivered.map Prod.fst ++ [record].filter fun r => mapsToSource r.payload := by
  obtain ⟨clockOffsetMs, offsetCaptured, heq⟩ := captureOffset_frame now source record
  unfold deliver
  rw [heq]
  by_cases hmaps : mapsToSource record.payload
  · simp [hmaps]
  · simp [hmaps]

theorem foldl_deliver_decoded (now : ℤ) (source : DriverSource) (records : List Record) :
    (records.foldl (deliver now) source).decoded = source.decoded + records.length := by
  induction records generalizing source with
  | nil => rfl
  | cons record records ih =>
    obtain ⟨clockOffsetMs, offsetCaptured, delivered, heq⟩ := deliver_frame now source record
    rw [List.foldl_cons, ih, heq, List.length_cons]
    show source.decoded + 1 + records.length = _
    omega

/-- Delivery keeps the order and drops only the records without a source event. -/
theorem foldl_deliver_delivered (now : ℤ) (source : DriverSource) (records : List Record) :
    (records.foldl (deliver now) source).delivered.map Prod.fst =
      source.delivered.map Prod.fst ++ records.filter fun r => mapsToSource r.payload := by
  induction records generalizing source with
  | nil => simp
  | cons record records ih =>
    rw [List.foldl_cons, ih, deliver_delivered, List.append_assoc, ← List.filter_append]
    rfl

/-! ## Sized chunks -/

/-- At least a header long, and the size field is the length. -/
def Sized (chunk : List UInt8) : Prop :=
  48 ≤ chunk.length ∧ ∃ sizeRaw, u32At chunk 40 = .ok sizeRaw ∧ sizeRaw.toNat = chunk.length

def decodable (chunks : List (List UInt8)) : List Record :=
  chunks.filterMap fun chunk => (decode chunk).toOption

/-- What one sized chunk does to the source. -/
def visit (now : ℤ) (source : DriverSource) (chunk : List UInt8) : DriverSource :=
  match decode chunk with
  | .ok record => deliver now source record
  | .error _ => { source with skipped := source.skipped + 1 }

theorem Sized.recordSize {chunk : List UInt8} (h : Sized chunk) :
    recordSize chunk = .ok chunk.length := by
  obtain ⟨hlow, sizeRaw, hread, hsize⟩ := h
  exact recordSize_ok.mpr ⟨sizeRaw, hread, hsize, hlow, le_rfl⟩

theorem walkStep_chunk {chunk : List UInt8} (h : Sized chunk) (now : ℤ) (tail : List UInt8)
    (source : DriverSource) :
    walkStep now (chunk ++ tail, source) = some (tail, visit now source chunk) := by
  have hnonempty : (chunk ++ tail).isEmpty = false := by
    cases chunk with
    | nil => exact absurd h.1 (by decide)
    | cons _ _ => rfl
  have hdrop : (chunk ++ tail).drop chunk.length = tail := List.drop_left
  unfold walkStep visit
  simp only [hnonempty, decode_append tail h.recordSize, recordSize_append tail h.recordSize,
    Bool.false_eq_true, if_false]
  cases decode chunk with
  | ok record => simp only [hdrop]
  | error e => simp only [hdrop]

theorem runLoop_chunks {chunks : List (List UInt8)} (h : ∀ chunk ∈ chunks, Sized chunk) (now : ℤ)
    (source : DriverSource) {fuel : ℕ} (hfuel : chunks.flatten.length ≤ fuel) :
    runLoop (walkStep now) fuel (chunks.flatten, source) = ([], chunks.foldl (visit now) source) := by
  induction chunks generalizing source fuel with
  | nil =>
    cases fuel with
    | zero => rfl
    | succ fuel => rfl
  | cons chunk chunks ih =>
    have hsized := h chunk List.mem_cons_self
    have hlow := hsized.1
    rw [List.flatten_cons, List.length_append] at hfuel
    obtain ⟨fuel, rfl⟩ : ∃ n, fuel = n + 1 := ⟨fuel - 1, by omega⟩
    rw [List.flatten_cons, runLoop, walkStep_chunk hsized]
    exact ih (fun c hc => h c (List.mem_cons_of_mem _ hc)) _ (by omega)

/-- A chunk that does not decode costs only itself. -/
theorem foldl_visit (now : ℤ) (source : DriverSource) (chunks : List (List UInt8)) :
    chunks.foldl (visit now) source =
      { (decodable chunks).foldl (deliver now) source with
        skipped := source.skipped + (chunks.length - (decodable chunks).length) } := by
  induction chunks generalizing source with
  | nil => rfl
  | cons chunk chunks ih =>
    have hle : (decodable chunks).length ≤ chunks.length := List.length_filterMap_le _ _
    rw [List.foldl_cons, ih]
    cases hdecode : decode chunk with
    | ok record =>
      have hcons : decodable (chunk :: chunks) = record :: decodable chunks := by
        simp [decodable, hdecode, Except.toOption]
      have hskipped : (deliver now source record).skipped = source.skipped := by
        obtain ⟨clockOffsetMs, offsetCaptured, delivered, heq⟩ := deliver_frame now source record
        rw [heq]
      simp only [visit, hdecode, hcons, List.foldl_cons, hskipped, List.length_cons]
      congr 2
      omega
    | error e =>
      have hcons : decodable (chunk :: chunks) = decodable chunks := by
        simp [decodable, hdecode, Except.toOption]
      simp only [visit, hdecode, hcons, foldl_deliver_skipped, List.length_cons]
      congr 1
      omega

/-! ## Agreement with `decode_all` -/

theorem walkStep_record {buf : List UInt8} {record : Record} {size : ℕ} (hdecode : decode buf = .ok record)
    (hsize : recordSize buf = .ok size) (now : ℤ) (source : DriverSource) :
    walkStep now (buf, source) = some (buf.drop size, deliver now source record) := by
  have hnonempty : buf.isEmpty = false := by
    cases buf with
    | nil => exact absurd (recordSize_bounds hsize).2 (by have := (recordSize_bounds hsize).1; simp; omega)
    | cons _ _ => rfl
  simp only [walkStep, hnonempty, hdecode, hsize, Bool.false_eq_true, if_false]

theorem decodeAll_record {buf : List UInt8} {record : Record} {size : ℕ} {records : List Record}
    (hdecode : decode buf = .ok record) (hsize : recordSize buf = .ok size)
    (h : decodeAll buf = .ok records) :
    ∃ rest, decodeAll (buf.drop size) = .ok rest ∧ records = record :: rest := by
  rw [decodeAll] at h
  split at h
  · rename_i hempty
    obtain rfl := List.isEmpty_iff.mp hempty
    cases hsize
  · rw [hdecode] at h
    simp only at h
    split at h
    · cases h
    · rename_i consumed hconsumed
      obtain rfl : size = consumed := by simpa [hsize] using hconsumed
      split at h
      · cases h
      · rename_i rest hrest
        cases h
        exact ⟨rest, hrest, rfl⟩

theorem runLoop_decodeAll {now : ℤ} {buf : List UInt8} {records : List Record}
    (h : decodeAll buf = .ok records) (source : DriverSource) {fuel : ℕ} (hfuel : buf.length ≤ fuel) :
    runLoop (walkStep now) fuel (buf, source) = ([], records.foldl (deliver now) source) := by
  induction buf using decodeAll.induct generalizing records source fuel with
  | case1 buf hempty =>
    rw [decodeAll, if_pos hempty] at h
    cases h
    obtain rfl := List.isEmpty_iff.mp hempty
    cases fuel <;> rfl
  | case2 buf hne e hdecode =>
    rw [decodeAll, if_neg hne, hdecode] at h
    cases h
  | case3 buf hne record hdecode e hsize =>
    obtain ⟨sizeRaw, hsized, -⟩ := decode_ok hdecode
    rw [hsized] at hsize
    cases hsize
  | case4 buf hne record hdecode size hsize hbounds e hrest ih =>
    obtain ⟨rest, hok, -⟩ := decodeAll_record hdecode hsize h
    rw [hok] at hrest
    cases hrest
  | case5 buf hne record hdecode size hsize hbounds rest' hrest' ih =>
    obtain ⟨rest, hrest, rfl⟩ := decodeAll_record hdecode hsize h
    obtain ⟨fuel, rfl⟩ : ∃ n, fuel = n + 1 := ⟨fuel - 1, by omega⟩
    rw [runLoop, walkStep_record hdecode hsize, List.foldl_cons]
    refine ih hrest _ ?_
    rw [List.length_drop]
    omega

/-! ## The walk -/

/-- The walk breaks on every buffer; on a row of sized chunks it delivers the ones that decode and
counts the others; where `decode_all` succeeds it delivers the same list; and a record that decodes
does so in front of any tail, with its strings and data from inside its declared size. -/
theorem drain_walk :
    (∀ (now : ℤ) (source : DriverSource) (buf : List UInt8),
      walkStep now (runLoop (walkStep now) buf.length (buf, source)) = none) ∧
    (∀ (now : ℤ) (source : DriverSource) (chunks : List (List UInt8)), (∀ chunk ∈ chunks, Sized chunk) →
      drainBatch source (chunks.flatten, now) =
        { (decodable chunks).foldl (deliver now) source with
          skipped := source.skipped + (chunks.length - (decodable chunks).length) }) ∧
    (∀ (now : ℤ) (source : DriverSource) (buf : List UInt8) (records : List Record),
      decodeAll buf = .ok records →
        drainBatch source (buf, now) = records.foldl (deliver now) source) ∧
    (∀ (now : ℤ) (source : DriverSource) (records : List Record),
      (records.foldl (deliver now) source).decoded = source.decoded + records.length ∧
        (records.foldl (deliver now) source).delivered.map Prod.fst =
          source.delivered.map Prod.fst ++ records.filter fun r => mapsToSource r.payload) ∧
    ∀ (buf : List UInt8) (record : Record), decode buf = .ok record →
      (∀ tail, decode (buf ++ tail) = .ok record) ∧
        ∃ size, recordSize buf = .ok size ∧ (∀ s ∈ record.payload.strings, StringWithin buf size s) ∧
          Within buf size record.payload.data := by
  refine ⟨?_, ?_, ?_, ?_, ?_⟩
  · intro now source buf
    exact drainBatch_ends source (buf, now)
  · intro now source chunks hsized
    rw [← foldl_visit, drainBatch, runLoop_chunks hsized now source le_rfl]
  · intro now source buf records hall
    rw [drainBatch, runLoop_decodeAll hall source le_rfl]
  · intro now source records
    exact ⟨foldl_deliver_decoded now source records, foldl_deliver_delivered now source records⟩
  · intro buf record hdecode
    obtain ⟨sizeRaw, hsize, -⟩ := decode_ok hdecode
    exact ⟨fun tail => (decode_append tail hsize).trans hdecode, decode_within hdecode⟩

end SecOutfall.Agent
