import SecOutfall.Wire.Decode

/-! A decoded record depends on the bytes of its declared extent only.

Bytes behind the extent change no reader in front of it, and every string and value a payload
carries is a slice of the extent. -/
namespace SecOutfall.Wire
open Bytes Utf16
set_option autoImplicit false

/-! ## Successful computations -/

universe u v

theorem bind_ok {ε : Type u} {α β : Type v} {x : Except ε α} {f : α → Except ε β} {b : β} :
    x >>= f = .ok b ↔ ∃ a, x = .ok a ∧ f a = .ok b := by
  cases x with
  | error e => simp [bind, Except.bind]
  | ok a => simp [bind, Except.bind]

theorem guard_ok {ε : Type u} {α β : Type v} {c : Prop} [Decidable c] {e : ε} {f : α → Except ε β}
    {y : Except ε β} {b : β} :
    (if c then throw e >>= f else y) = .ok b ↔ ¬ c ∧ y = .ok b := by
  by_cases h : c
  · simp [h, bind, Except.bind, throw, throwThe, MonadExceptOf.throw]
  · simp [h]

theorem pure_ok {ε : Type u} {α : Type v} {a b : α} : (pure a : Except ε α) = .ok b ↔ a = b := by
  simp [pure, Except.pure]

theorem map_ok {ε : Type u} {α β : Type v} {f : α → β} {x : Except ε α} {b : β} :
    f <$> x = .ok b ↔ ∃ a, x = .ok a ∧ f a = b := by
  cases x <;> simp [Functor.map, Except.map]

/-! ## Readers in front of the tail -/

section
variable {buf : List UInt8} (tail : List UInt8)

theorem u8At_append {pos : ℕ} (h : pos < buf.length) : u8At (buf ++ tail) pos = u8At buf pos := by
  rw [u8At, u8At, List.getElem?_append_left h, List.getElem?_eq_getElem h]

theorem leAt_append {n pos : ℕ} (h : pos + n ≤ buf.length) :
    leAt (buf ++ tail) n pos = leAt buf n pos := by
  induction n generalizing pos with
  | zero => rfl
  | succ n ih => rw [leAt, leAt, u8At_append tail (by omega), ih (by omega)]

theorem u16At_append {pos : ℕ} (h : pos + 2 ≤ buf.length) :
    u16At (buf ++ tail) pos = u16At buf pos := by
  rw [u16At, u16At, leAt_append tail h]

theorem u32At_append {pos : ℕ} (h : pos + 4 ≤ buf.length) :
    u32At (buf ++ tail) pos = u32At buf pos := by
  rw [u32At, u32At, leAt_append tail h]

theorem u64At_append {pos : ℕ} (h : pos + 8 ≤ buf.length) :
    u64At (buf ++ tail) pos = u64At buf pos := by
  rw [u64At, u64At, leAt_append tail h]

/-! ## The declared extent -/

theorem recordSize_ok {buf : List UInt8} {size : ℕ} :
    recordSize buf = .ok size ↔
      ∃ sizeRaw, u32At buf 40 = .ok sizeRaw ∧ sizeRaw.toNat = size ∧ 48 ≤ size ∧ size ≤ buf.length := by
  simp only [recordSize, bind_ok, guard_ok, pure_ok]
  simp only [headerSizeBytes, not_or, not_lt]
  constructor
  · rintro ⟨sizeRaw, hread, ⟨hlow, hhigh⟩, rfl⟩
    exact ⟨sizeRaw, hread, rfl, hlow, by omega⟩
  · rintro ⟨sizeRaw, hread, rfl, hlow, hhigh⟩
    exact ⟨sizeRaw, hread, ⟨hlow, by omega⟩, rfl⟩

theorem recordSize_append {size : ℕ} (h : recordSize buf = .ok size) :
    recordSize (buf ++ tail) = .ok size := by
  obtain ⟨sizeRaw, hread, hsize, hlow, hhigh⟩ := recordSize_ok.mp h
  refine recordSize_ok.mpr ⟨sizeRaw, ?_, hsize, hlow, ?_⟩
  · rw [u32At_append tail (by omega), hread]
  · rw [List.length_append]
    omega

/-- A buffer that starts with a sized record decodes as that record alone does. -/
theorem decode_append {size : ℕ} (h : recordSize buf = .ok size) :
    decode (buf ++ tail) = decode buf := by
  obtain ⟨sizeRaw, hread, rfl, hlow, hhigh⟩ := recordSize_ok.mp h
  have hheader : ¬ buf.length < headerSizeBytes := by
    simp only [headerSizeBytes]
    omega
  have hheader' : ¬ (buf ++ tail).length < headerSizeBytes := by
    rw [List.length_append]
    omega
  have hsized : ¬ (sizeRaw.toNat < headerSizeBytes ∨ sizeRaw.toNat > buf.length) := by
    simp only [headerSizeBytes]
    omega
  have hsized' : ¬ (sizeRaw.toNat < headerSizeBytes ∨ sizeRaw.toNat > (buf ++ tail).length) := by
    rw [List.length_append]
    omega
  have htake : (buf ++ tail).take sizeRaw.toNat = buf.take sizeRaw.toNat :=
    List.take_append_of_le_length hhigh
  simp only [decode, if_neg hheader, if_neg hheader', u16At_append tail (show 0 + 2 ≤ buf.length by omega),
    u8At_append tail (show 2 < buf.length by omega), u8At_append tail (show 3 < buf.length by omega),
    u16At_append tail (show 4 + 2 ≤ buf.length by omega),
    u16At_append tail (show 6 + 2 ≤ buf.length by omega),
    u32At_append tail (show 8 + 4 ≤ buf.length by omega),
    u64At_append tail (show 16 + 8 ≤ buf.length by omega),
    u64At_append tail (show 24 + 8 ≤ buf.length by omega),
    u64At_append tail (show 32 + 8 ≤ buf.length by omega),
    u32At_append tail (show 40 + 4 ≤ buf.length by omega), hread, bind, Except.bind, if_neg hsized,
    if_neg hsized', htake]

end

theorem decode_ok {buf : List UInt8} {record : Record} (h : decode buf = .ok record) :
    ∃ sizeRaw, recordSize buf = .ok sizeRaw.toNat ∧
      payloadOf record.kind (buf.take sizeRaw.toNat) sizeRaw.toNat sizeRaw = .ok record.payload := by
  simp only [decode, bind_ok, guard_ok] at h
  obtain ⟨_, _, _, _, _, _, _, _, _, rawType, _, _, _, _, _, _, _, _, _, _, _, _, sizeRaw, hread,
    hsized, _, hkind⟩ := h
  simp only [headerSizeBytes, not_or, not_lt] at hsized
  refine ⟨sizeRaw, recordSize_ok.mpr ⟨sizeRaw, hread, rfl, hsized.1, by omega⟩, ?_⟩
  split at hkind
  · simp only [bind_ok, pure_ok] at hkind
    obtain ⟨kind, rfl, payload, hpayload, rfl⟩ := hkind
    exact hpayload
  · simp only [bind_ok] at hkind
    obtain ⟨kind, hthrow, -⟩ := hkind
    cases hthrow

/-! ## Strings and data -/

def Payload.strings : Payload → List String
  | .processCreated _ commandLine imageName => commandLine.toList ++ imageName.toList
  | .imageLoaded _ _ name => name.toList
  | .registryKeyCreated path | .registryKeyDeleted path => [path]
  | .registrySetValue keyPath valueName _ _ => [keyPath, valueName]
  | .fileCreated path | .fileWritten _ _ path | .fileCleanedUp path | .fileDeleted path => [path]
  | .fileRenamed oldPath newPath => [oldPath, newPath]
  | .dropCaptured path storedName _ => [path, storedName]
  | .processExited | .thread _ | .behaviorCall _ _ _ _ _ _ | .protectionEvent _ _ _ _ _ => []

def Payload.data : Payload → List UInt8
  | .registrySetValue _ _ _ data => data
  | _ => []

/-- The bytes lie inside the first `size` of the buffer. -/
def Within (buf : List UInt8) (size : ℕ) (bytes : List UInt8) : Prop :=
  ∃ off n, off + n ≤ size ∧ bytes = slice buf off n

def StringWithin (buf : List UInt8) (size : ℕ) (s : String) : Prop :=
  ∃ bytes, Within buf size bytes ∧ s = fromUtf16Lossy (unitsOf bytes)

theorem within_nil (buf : List UInt8) (size : ℕ) : Within buf size [] :=
  ⟨0, 0, Nat.zero_le size, rfl⟩

theorem Within.take {buf : List UInt8} {size : ℕ} {bytes : List UInt8}
    (h : Within (buf.take size) size bytes) : Within buf size bytes := by
  obtain ⟨off, n, hle, rfl⟩ := h
  refine ⟨off, n, hle, ?_⟩
  rw [slice, slice, List.drop_take, List.take_take, Nat.min_eq_left (by omega)]

theorem getRange_within {buf bytes : List UInt8} {start stop : ℕ}
    (h : getRange buf start stop = some bytes) : Within buf buf.length bytes := by
  unfold getRange at h
  split at h
  · rename_i hbounds
    exact ⟨start, stop - start, by omega, (Option.some.inj h).symm⟩
  · cases h

theorem stringAt_within {buf : List UInt8} {offset bytes : ℕ} {s : String}
    (h : stringAt buf offset bytes = .ok s) : StringWithin buf buf.length s := by
  unfold stringAt strField at h
  split at h
  · cases h
  · split at h
    · cases h
      exact ⟨[], within_nil buf buf.length, rfl⟩
    · split at h
      · rename_i region hrange
        cases h
        exact ⟨region, getRange_within hrange, rfl⟩
      · cases h

theorem nameAt_within {buf : List UInt8} {offset bytes : ℕ} {name : Option String}
    (h : nameAt buf offset bytes = .ok name) : ∀ s ∈ name.toList, StringWithin buf buf.length s := by
  unfold nameAt at h
  split at h
  · cases h
    simp
  · obtain ⟨s, hs, rfl⟩ := map_ok.mp h
    intro t ht
    obtain rfl : t = s := by simpa using ht
    exact stringAt_within hs

theorem pathAt_within {buf : List UInt8} {s : String} (h : pathAt buf = .ok s) :
    StringWithin buf buf.length s := by
  simp only [pathAt, bind_ok] at h
  obtain ⟨pathOffset, -, pathBytes, -, hs⟩ := h
  exact stringAt_within hs

/-- Each variable-length field of a payload is a region of its record. -/
structure Payload.InRecord (payload : Payload) (record : List UInt8) : Prop where
  strings : ∀ s ∈ payload.strings, StringWithin record record.length s
  data : Within record record.length payload.data

theorem Payload.InRecord.of_fixed {payload : Payload} (record : List UInt8) (hs : payload.strings = [])
    (hd : payload.data = []) : payload.InRecord record := by
  refine ⟨by simp [hs], ?_⟩
  rw [hd]
  exact within_nil record record.length

theorem parseRegistrySetValue_inRecord {record : List UInt8} {size : ℕ} {payload : Payload}
    (h : parseRegistrySetValue record size = .ok payload) : payload.InRecord record := by
  simp only [parseRegistrySetValue, bind_ok] at h
  obtain ⟨_, _, _, _, _, _, _, _, _, _, _, _, keyPath, hkey, valueName, hvalue, hdata⟩ := h
  split at hdata
  · rename_i data hrange
    obtain rfl := pure_ok.mp hdata
    refine ⟨?_, getRange_within hrange⟩
    simp only [Payload.strings, List.forall_mem_cons]
    exact ⟨stringAt_within hkey, stringAt_within hvalue, by simp⟩
  · cases hdata

theorem payloadFields_inRecord {kind : RecordKind} {record : List UInt8} {size : ℕ} {payload : Payload}
    (h : payloadFields kind record size = .ok payload) : payload.InRecord record := by
  have hone : ∀ {p : Payload} {s : String}, p.strings = [s] → p.data = [] →
      StringWithin record record.length s → p.InRecord record := by
    intro p s hs hd hwithin
    refine ⟨by simpa [hs] using hwithin, ?_⟩
    rw [hd]
    exact within_nil record record.length
  cases kind with
  | processCreated =>
    simp only [payloadFields, bind_ok, pure_ok] at h
    obtain ⟨_, _, _, _, _, _, _, _, _, _, commandLine, hcmd, imageName, himage, rfl⟩ := h
    refine ⟨?_, within_nil record record.length⟩
    intro s hs
    rcases List.mem_append.mp hs with hs | hs
    · exact nameAt_within hcmd s hs
    · exact nameAt_within himage s hs
  | processExited =>
    obtain rfl := pure_ok.mp h
    exact .of_fixed record rfl rfl
  | threadCreated | threadExited =>
    simp only [payloadFields, bind_ok, pure_ok] at h
    obtain ⟨threadId, -, rfl⟩ := h
    exact .of_fixed record rfl rfl
  | imageLoaded =>
    simp only [payloadFields, bind_ok, pure_ok] at h
    obtain ⟨_, _, _, _, _, _, _, _, name, hname, rfl⟩ := h
    exact ⟨nameAt_within hname, within_nil record record.length⟩
  | registryKeyCreated | registryKeyDeleted | fileCreated | fileCleanedUp | fileDeleted =>
    simp only [payloadFields, bind_ok, pure_ok] at h
    obtain ⟨path, hpath, rfl⟩ := h
    exact hone rfl rfl (pathAt_within hpath)
  | registrySetValue => exact parseRegistrySetValue_inRecord h
  | fileWritten =>
    simp only [payloadFields, bind_ok, pure_ok] at h
    obtain ⟨_, _, _, _, _, _, _, _, path, hpath, rfl⟩ := h
    exact hone rfl rfl (stringAt_within hpath)
  | fileRenamed =>
    simp only [payloadFields, bind_ok, pure_ok] at h
    obtain ⟨_, _, _, _, _, _, _, _, oldPath, hold, newPath, hnew, rfl⟩ := h
    refine ⟨?_, within_nil record record.length⟩
    simp only [Payload.strings, List.forall_mem_cons]
    exact ⟨stringAt_within hold, stringAt_within hnew, by simp⟩
  | dropCaptured =>
    simp only [payloadFields, parseDropCaptured, bind_ok, pure_ok] at h
    obtain ⟨_, _, _, _, _, _, _, _, _, _, path, hpath, storedName, hstored, rfl⟩ := h
    refine ⟨?_, within_nil record record.length⟩
    simp only [Payload.strings, List.forall_mem_cons]
    exact ⟨stringAt_within hpath, stringAt_within hstored, by simp⟩
  | behaviorCall =>
    simp only [payloadFields, parseBehaviorCall, bind_ok, pure_ok] at h
    obtain ⟨_, _, _, _, _, _, _, _, _, _, _, _, rfl⟩ := h
    exact .of_fixed record rfl rfl
  | protectionEvent =>
    simp only [payloadFields, parseProtectionEvent, bind_ok, pure_ok] at h
    obtain ⟨_, _, _, _, _, _, _, _, _, _, rfl⟩ := h
    exact .of_fixed record rfl rfl

/-- Everything variable in a decoded record comes from inside its declared size. -/
theorem decode_within {buf : List UInt8} {record : Record} (h : decode buf = .ok record) :
    ∃ size, recordSize buf = .ok size ∧ (∀ s ∈ record.payload.strings, StringWithin buf size s) ∧
      Within buf size record.payload.data := by
  obtain ⟨sizeRaw, hsize, hpayload⟩ := decode_ok h
  have hle := (recordSize_bounds hsize).2
  have hlength : (buf.take sizeRaw.toNat).length = sizeRaw.toNat := by
    rw [List.length_take, Nat.min_eq_left hle]
  unfold payloadOf at hpayload
  split at hpayload
  · cases hpayload
  · obtain ⟨hstrings, hdata⟩ := payloadFields_inRecord hpayload
    rw [hlength] at hstrings hdata
    refine ⟨sizeRaw.toNat, hsize, fun s hs => ?_, hdata.take⟩
    obtain ⟨bytes, hwithin, heq⟩ := hstrings s hs
    exact ⟨bytes, hwithin.take, heq⟩

end SecOutfall.Wire
