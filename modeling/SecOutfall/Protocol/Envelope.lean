import SecOutfall.Protocol.Payload

/-! The typed envelope: `nats.rs` of the protocol crate. How a study id is written and parsed is given. -/
namespace SecOutfall.Protocol
open Records
set_option autoImplicit false

/-! ## Model -/

def protocolVersion : UInt32 := 3

inductive ProtocolError where
  | unsupportedVersion (v : UInt32)
  | invalidEnvelope
  | invalidPayload (eventType : EventType)
  deriving DecidableEq, Repr

/-- `Uuid` for serde: `to_string` and `Uuid::parse_str`. -/
structure UuidText (Uuid : Type) where
  format : Uuid → String
  parse : String → Option Uuid

structure Envelope (Uuid Data : Type) where
  v : UInt32
  eventType : EventType
  ts : Int64
  study : Uuid
  session : UInt32
  seq : UInt64
  data : Data

namespace Envelope

variable {Uuid : Type} (uuid : UuidText Uuid)

def keys : List String := ["v", "type", "ts", "study", "session", "seq", "data"]

/-- `Serialize`, the data serialized already. -/
def toValue (envelope : Envelope Uuid Json) : Json :=
  .object [("v", u32.encode envelope.v), ("type", Protocol.eventType.encode envelope.eventType),
    ("ts", i64.encode envelope.ts), ("study", .string (uuid.format envelope.study)),
    ("session", u32.encode envelope.session), ("seq", u64.encode envelope.seq), ("data", envelope.data)]

def readUuid : Json → Option Uuid
  | .string value => uuid.parse value
  | _ => none

/-- `RawEnvelope`. -/
def readRaw (value : Json) : Option (Envelope Uuid Json) :=
  match members keys value with
  | some [v, type, ts, study, session, seq, data] => do
    let v ← v.bind u32.decode
    let eventType ← type.bind Protocol.eventType.decode
    let ts ← ts.bind i64.decode
    let study ← study.bind (readUuid uuid)
    let session ← session.bind u32.decode
    let seq ← seq.bind u64.decode
    let data ← data
    some { v, eventType, ts, study, session, seq, data }
  | _ => none

/-- The envelope as it is serialized. -/
def serialize (envelope : Envelope Uuid Payload) : Json :=
  toValue uuid { envelope with data := envelope.data.toValue }

def fromValue (value : Json) : Except ProtocolError (Envelope Uuid Payload) :=
  match readRaw uuid value with
  | none => .error .invalidEnvelope
  | some raw =>
    if raw.v != protocolVersion then .error (.unsupportedVersion raw.v)
    else
      match Payload.fromRaw raw.eventType raw.data with
      | none => .error (.invalidPayload raw.eventType)
      | some data => .ok { raw with data := data }

/-! ## Round trip -/

variable {uuid}

theorem readRaw_toValue (envelope : Envelope Uuid Json) (h : uuid.parse (uuid.format envelope.study) = some envelope.study) :
    readRaw uuid (toValue uuid envelope) = some envelope := by
  have hmembers : members keys (toValue uuid envelope) =
      some [some (u32.encode envelope.v), some (Protocol.eventType.encode envelope.eventType),
        some (i64.encode envelope.ts), some (.string (uuid.format envelope.study)),
        some (u32.encode envelope.session), some (u64.encode envelope.seq), some envelope.data] := by
    simp [members, keys, toValue, List.lookup_cons]
  rw [readRaw, hmembers]
  simp only [Option.bind_some, Codec.decode_encode, readUuid, h]
  rfl

theorem fromValue_serialize (envelope : Envelope Uuid Payload) (hversion : envelope.v = protocolVersion)
    (htype : envelope.eventType = envelope.data.eventType)
    (h : uuid.parse (uuid.format envelope.study) = some envelope.study) :
    fromValue uuid (serialize uuid envelope) = .ok envelope := by
  have hraw := readRaw_toValue { envelope with data := envelope.data.toValue } h
  rw [fromValue, serialize, hraw]
  dsimp only
  rw [hversion, if_neg (by decide), htype, Payload.fromRaw_toValue, ← htype, ← hversion]

/-! ## Rejection -/

/-- Another version, or a data object with a key outside of what its type has. -/
def Foreign (raw : Envelope Uuid Json) : Prop :=
  raw.v ≠ protocolVersion ∨ ∃ entries key, raw.data = .object entries ∧ key ∈ entries.map Prod.fst ∧
    key ∉ dataKeys raw.eventType

theorem fromValue_foreign {value : Json} (h : ∀ raw, readRaw uuid value = some raw → Foreign raw) :
    ∃ error, fromValue uuid value = .error error := by
  unfold fromValue
  cases hraw : readRaw uuid value with
  | none => exact ⟨_, rfl⟩
  | some raw =>
    dsimp only
    by_cases hversion : raw.v = protocolVersion
    · rw [if_neg (by simpa using hversion)]
      obtain hother | ⟨entries, key, hdata, hkey, hforeign⟩ := h raw hraw
      · exact absurd hversion hother
      · rw [hdata, Payload.fromRaw_foreign hkey hforeign]
        exact ⟨_, rfl⟩
    · rw [if_pos (by simpa using hversion)]
      exact ⟨_, rfl⟩

end Envelope

end SecOutfall.Protocol
