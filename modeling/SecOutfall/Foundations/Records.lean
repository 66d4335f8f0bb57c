import Mathlib.Data.List.Nodup
import Mathlib.Data.String.Basic

/-! Structures as JSON values.

A field says how its value is written under its key, or left out, and how what stands under the key is read back.
A structure is written as an object of its fields. It is read from an object that has no other keys, or from an
array of all its fields in their order. The entries of an object have no order that a reader depends on. -/
namespace SecOutfall.Records
set_option autoImplicit false

inductive Json where
  | null
  | bool (value : Bool)
  | posInt (value : UInt64)
  | negInt (value : Int64)
  | float (bits : UInt64)
  | string (value : String)
  | array (elements : List Json)
  | object (entries : List (String × Json))

/-! ## Codecs -/

/-- A value is read back, and none is read from `null`. -/
structure Codec (α : Type) where
  encode : α → Json
  decode : Json → Option α
  decode_encode : ∀ value, decode (encode value) = some value
  decode_null : decode .null = none

theorem Codec.encode_ne_null {α : Type} (codec : Codec α) (value : α) : codec.encode value ≠ .null := by
  intro h
  have hdecode := codec.decode_encode value
  rw [h, codec.decode_null] at hdecode
  cases hdecode

/-- An unsigned integer of at most 64 bits. -/
def unsigned {α : Type} (widen : α → UInt64) (narrow : UInt64 → α) (bound : UInt64) (hbound : ∀ value, widen value ≤ bound)
    (hnarrow : ∀ value, narrow (widen value) = value) : Codec α where
  encode value := .posInt (widen value)
  decode
    | .posInt value => if value ≤ bound then some (narrow value) else none
    | _ => none
  decode_encode value := by
    show (if widen value ≤ bound then some (narrow (widen value)) else none) = some value
    rw [if_pos (hbound value), hnarrow]
  decode_null := rfl

def u16 : Codec UInt16 :=
  unsigned UInt16.toUInt64 UInt64.toUInt16 65535
    (fun value => UInt64.le_iff_toNat_le.mpr (Nat.le_of_lt_succ value.toNat_lt)) UInt16.toUInt16_toUInt64

def u32 : Codec UInt32 :=
  unsigned UInt32.toUInt64 UInt64.toUInt32 4294967295
    (fun value => UInt64.le_iff_toNat_le.mpr (Nat.le_of_lt_succ value.toNat_lt)) UInt32.toUInt32_toUInt64

def u64 : Codec UInt64 :=
  unsigned id id 18446744073709551615
    (fun value => UInt64.le_iff_toNat_le.mpr (Nat.le_of_lt_succ value.toNat_lt)) fun _ => rfl

theorem toUInt64_le {value : Int64} (h : ¬ value < 0) : value.toUInt64 ≤ 9223372036854775807 := by
  have hnonneg : 0 ≤ value.toInt := by
    rw [Int64.lt_iff_toInt_lt] at h
    simpa using h
  have hdouble : 2 * value.toBitVec.toNat < 18446744073709551616 := BitVec.toInt_pos_iff.mp hnonneg
  have hle : value.toUInt64.toNat ≤ 9223372036854775807 := by
    show value.toBitVec.toNat ≤ 9223372036854775807
    omega
  exact UInt64.le_iff_toNat_le.mpr hle

/-- A number below zero is one of its own kind. -/
def i64 : Codec Int64 where
  encode value := if value < 0 then .negInt value else .posInt value.toUInt64
  decode
    | .posInt value => if value ≤ 9223372036854775807 then some value.toInt64 else none
    | .negInt value => some value
    | _ => none
  decode_encode value := by
    by_cases h : value < 0
    · rw [if_pos h]
    · rw [if_neg h]
      show (if value.toUInt64 ≤ 9223372036854775807 then some value.toUInt64.toInt64 else none) = some value
      rw [if_pos (toUInt64_le h), Int64.toInt64_toUInt64]
  decode_null := rfl

def boolean : Codec Bool where
  encode := .bool
  decode
    | .bool value => some value
    | _ => none
  decode_encode _ := rfl
  decode_null := rfl

def text : Codec String where
  encode := .string
  decode
    | .string value => some value
    | _ => none
  decode_encode _ := rfl
  decode_null := rfl

/-- The names of an enumeration without data; a name may also be the only key of an object, over `null`. -/
def enumeration {α : Type} (all : List α) (name : α → String)
    (hall : ∀ value, all.find? (fun other => name other == name value) = some value) : Codec α where
  encode value := .string (name value)
  decode
    | .string given => all.find? (fun other => name other == given)
    | .object [(given, .null)] => all.find? (fun other => name other == given)
    | _ => none
  decode_encode := hall
  decode_null := rfl

/-! ## Maps -/

/-- A map with string keys, in the order of its keys. -/
structure SortedMap (α : Type) where
  entries : List (String × α)
  sorted : entries.Pairwise fun entry later => entry.1 < later.1

section
variable {α : Type}

def insertEntry (entry : String × α) : List (String × α) → List (String × α)
  | [] => [entry]
  | other :: rest =>
    if entry.1 < other.1 then entry :: other :: rest
    else if entry.1 = other.1 then entry :: rest
    else other :: insertEntry entry rest

theorem mem_insertEntry {entry other : String × α} {entries : List (String × α)}
    (h : other ∈ insertEntry entry entries) : other = entry ∨ other ∈ entries := by
  induction entries with
  | nil => exact .inl (List.mem_singleton.mp h)
  | cons head rest ih =>
    unfold insertEntry at h
    split at h
    · exact List.mem_cons.mp h
    · split at h
      · exact (List.mem_cons.mp h).imp_right (List.mem_cons_of_mem _)
      · obtain rfl | h := List.mem_cons.mp h
        · exact .inr List.mem_cons_self
        · exact (ih h).imp_right (List.mem_cons_of_mem _)

theorem sorted_insertEntry (entry : String × α) {entries : List (String × α)}
    (h : entries.Pairwise fun entry later => entry.1 < later.1) :
    (insertEntry entry entries).Pairwise fun entry later => entry.1 < later.1 := by
  induction entries with
  | nil => exact List.pairwise_singleton _ _
  | cons head rest ih =>
    obtain ⟨hhead, hrest⟩ := List.pairwise_cons.mp h
    unfold insertEntry
    split
    case isTrue hlt =>
      refine List.pairwise_cons.mpr ⟨fun other hmem => ?_, h⟩
      obtain rfl | hmem := List.mem_cons.mp hmem
      · exact hlt
      · exact String.lt_trans hlt (hhead other hmem)
    case isFalse hnlt =>
      split
      case isTrue heq => exact List.pairwise_cons.mpr ⟨fun other hmem => heq ▸ hhead other hmem, hrest⟩
      case isFalse hne =>
        refine List.pairwise_cons.mpr ⟨fun other hmem => ?_, ih hrest⟩
        obtain rfl | hmem := mem_insertEntry hmem
        · exact lt_of_le_of_ne (not_lt.mp hnlt) (Ne.symm hne)
        · exact hhead other hmem

/-- A key above all others goes to the end. -/
theorem insertEntry_above {entry : String × α} {entries : List (String × α)}
    (h : ∀ other ∈ entries, other.1 < entry.1) : insertEntry entry entries = entries ++ [entry] := by
  induction entries with
  | nil => rfl
  | cons head rest ih =>
    have hlt := h head List.mem_cons_self
    rw [insertEntry, if_neg (lt_asymm hlt), if_neg (ne_of_gt hlt), ih fun other hmem => h other (List.mem_cons_of_mem _ hmem)]
    rfl

def SortedMap.empty : SortedMap α := ⟨[], .nil⟩

def SortedMap.insert (map : SortedMap α) (entry : String × α) : SortedMap α :=
  ⟨insertEntry entry map.entries, sorted_insertEntry entry map.sorted⟩

theorem foldl_insert (map : SortedMap α) (entries : List (String × α))
    (h : (map.entries ++ entries).Pairwise fun entry later => entry.1 < later.1) :
    entries.foldl SortedMap.insert map = ⟨map.entries ++ entries, h⟩ := by
  induction entries generalizing map with
  | nil =>
    cases map
    simp
  | cons entry entries ih =>
    have habove : ∀ other ∈ map.entries, other.1 < entry.1 := fun other hmem =>
      (List.pairwise_append.mp h).2.2 other hmem entry List.mem_cons_self
    have hinsert : (map.insert entry).entries = map.entries ++ [entry] := insertEntry_above habove
    rw [List.foldl_cons, ih (map.insert entry) (by rw [hinsert, List.append_assoc]; exact h)]
    simp only [hinsert, List.append_assoc, List.singleton_append]

theorem mapM_decode (codec : Codec α) (entries : List (String × α)) :
    ((entries.map fun entry => (entry.1, codec.encode entry.2)).mapM fun entry =>
      (codec.decode entry.2).map fun value => (entry.1, value)) = some entries := by
  induction entries with
  | nil => rfl
  | cons entry entries ih =>
    rw [List.map_cons, List.mapM_cons, ih]
    simp [codec.decode_encode]

/-- An object as a map. -/
def sortedMap (codec : Codec α) : Codec (SortedMap α) where
  encode map := .object (map.entries.map fun entry => (entry.1, codec.encode entry.2))
  decode
    | .object entries =>
      (entries.mapM fun entry => (codec.decode entry.2).map fun value => (entry.1, value)).map fun entries =>
        entries.foldl SortedMap.insert .empty
    | _ => none
  decode_encode map := by
    dsimp only
    rw [mapM_decode, Option.map_some, foldl_insert .empty map.entries map.sorted]
    rfl
  decode_null := rfl

end

/-! ## Fields -/

/-- `write` gives nothing for a value that is left out; `read` sees whether the key is there. -/
structure Field where
  name : String
  Value : Type
  write : Value → Option Json
  read : Option Json → Option Value
  read_write : ∀ value, read (write value) = some value

def required {α : Type} (name : String) (codec : Codec α) : Field where
  name := name
  Value := α
  write value := some (codec.encode value)
  read member := member.bind codec.decode
  read_write := codec.decode_encode

/-- Left out if there is no value. -/
def optional {α : Type} (name : String) (codec : Codec α) : Field where
  name := name
  Value := Option α
  write value := value.map codec.encode
  read
    | none => some none
    | some .null => some none
    | some json => (codec.decode json).map some
  read_write value := by
    cases value with
    | none => rfl
    | some value =>
      have hnull := codec.encode_ne_null value
      have hdecode := codec.decode_encode value
      rw [Option.map_some]
      split
      case h_1 heq => cases heq
      case h_2 heq => exact absurd (Option.some.inj heq) hnull
      case h_3 json hjson heq =>
        rw [← Option.some.inj heq, hdecode]
        rfl

/-! ## Structures -/

/-- No two fields of a structure share their key. -/
structure Schema where
  fields : List Field
  nodup : (fields.map Field.name).Nodup

/-- The values of the fields. -/
def Record : List Field → Type
  | [] => Unit
  | field :: fields => field.Value × Record fields

def names (fields : List Field) : List String := fields.map Field.name

def writes : (fields : List Field) → Record fields → List (Option Json)
  | [], _ => []
  | field :: fields, record => field.write record.1 :: writes fields record.2

/-- The entries of the fields that are not left out. -/
def entriesOf : (fields : List Field) → Record fields → List (String × Json)
  | [], _ => []
  | field :: fields, record =>
    match field.write record.1 with
    | some json => (field.name, json) :: entriesOf fields record.2
    | none => entriesOf fields record.2

def reads : (fields : List Field) → List (Option Json) → Option (Record fields)
  | [], _ => some ()
  | _ :: _, [] => none
  | field :: fields, member :: members =>
    (field.read member).bind fun value => (reads fields members).map fun rest => (value, rest)

/-- What a value has for each of the names, if it may be a structure of them. -/
def members (names : List String) : Json → Option (List (Option Json))
  | .object entries =>
    if entries.all fun entry => names.contains entry.1 then some (names.map fun name => List.lookup name entries)
    else none
  | .array elements => if elements.length = names.length then some (elements.map some) else none
  | _ => none

namespace Schema

def Value (schema : Schema) : Type := Record schema.fields

def keys (schema : Schema) : List String := names schema.fields

def encode (schema : Schema) (value : schema.Value) : Json := .object (entriesOf schema.fields value)

def decode (schema : Schema) (json : Json) : Option schema.Value :=
  (members schema.keys json).bind (reads schema.fields)

end Schema

theorem reads_writes (fields : List Field) (record : Record fields) : reads fields (writes fields record) = some record := by
  induction fields with
  | nil => rfl
  | cons field fields ih =>
    rw [writes, reads, field.read_write, Option.bind_some, ih]
    rfl

theorem entriesOf_cons (field : Field) (fields : List Field) (record : Record (field :: fields)) :
    entriesOf (field :: fields) record =
      ((field.write record.1).map fun json => (field.name, json)).toList ++ entriesOf fields record.2 := by
  rw [entriesOf]
  cases field.write record.1 <;> rfl

theorem mem_entriesOf {fields : List Field} {record : Record fields} {entry : String × Json}
    (h : entry ∈ entriesOf fields record) : entry.1 ∈ names fields := by
  induction fields with
  | nil => cases h
  | cons field fields ih =>
    rw [entriesOf_cons, List.mem_append, Option.mem_toList, Option.map_eq_some_iff] at h
    obtain ⟨json, -, rfl⟩ | h := h
    · exact List.mem_cons_self
    · exact List.mem_cons_of_mem _ (ih h)

theorem lookup_entriesOf {fields : List Field} {record : Record fields} {name : String} (h : name ∉ names fields) :
    (entriesOf fields record).lookup name = none := by
  rw [List.lookup_eq_none_iff]
  intro entry hmem
  rw [bne_iff_ne]
  rintro rfl
  exact h (mem_entriesOf hmem)

/-- Under its own name stands what was written. -/
theorem map_lookup_entriesOf (fields : List Field) (h : (fields.map Field.name).Nodup) (record : Record fields) :
    ((names fields).map fun name => List.lookup name (entriesOf fields record)) = writes fields record := by
  induction fields with
  | nil => rfl
  | cons field fields ih =>
    obtain ⟨hfresh, hrest⟩ := List.nodup_cons.mp h
    have hhead : List.lookup field.name (entriesOf (field :: fields) record) = field.write record.1 := by
      rw [entriesOf_cons]
      cases field.write record.1 with
      | none => exact lookup_entriesOf hfresh
      | some json => exact List.lookup_cons_self
    have htail : ∀ name ∈ names fields, List.lookup name (entriesOf (field :: fields) record) =
        List.lookup name (entriesOf fields record.2) := by
      intro name hmem
      have hne : (name == field.name) = false := by
        rw [beq_eq_false_iff_ne]
        rintro rfl
        exact hfresh hmem
      rw [entriesOf_cons]
      cases field.write record.1 with
      | none => rfl
      | some json =>
        show List.lookup name ((field.name, json) :: entriesOf fields record.2) = _
        rw [List.lookup_cons, hne]
    rw [writes, ← ih hrest record.2, ← List.map_congr_left htail, ← hhead]
    rfl

namespace Schema

variable {schema : Schema}

theorem decode_encode (schema : Schema) (value : schema.Value) : schema.decode (schema.encode value) = some value := by
  have hkeys : ((entriesOf schema.fields value).all fun entry => schema.keys.contains entry.1) = true := by
    rw [List.all_eq_true]
    intro entry hmem
    exact List.contains_iff_mem.mpr (mem_entriesOf hmem)
  rw [decode, encode, members, if_pos hkeys, keys, map_lookup_entriesOf schema.fields schema.nodup value]
  exact reads_writes schema.fields value

/-- An object with another key is no structure of the schema. -/
theorem decode_foreign {entries : List (String × Json)} {key : String} (hkey : key ∈ entries.map Prod.fst)
    (hforeign : key ∉ schema.keys) : schema.decode (.object entries) = none := by
  obtain ⟨entry, hmem, rfl⟩ := List.mem_map.mp hkey
  have hnot : ¬ (entries.all fun entry => schema.keys.contains entry.1) = true := by
    intro hall
    exact hforeign (List.contains_iff_mem.mp (List.all_eq_true.mp hall entry hmem))
  rw [decode, members, if_neg hnot]
  rfl

end Schema

end SecOutfall.Records
