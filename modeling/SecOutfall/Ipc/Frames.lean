import SecOutfall.Foundations.Bytes
import SecOutfall.Foundations.Framing

/-! The frames on the pipe between agent and user actor: `ipc/mod.rs` and `ipc/messages.rs` of the protocol
crate, and the writers and readers of `ipc_server.rs` and `ipc_client.rs` over the bytes of one direction. -/
namespace SecOutfall.Ipc
open Bytes Framing
set_option autoImplicit false

/-! ## Headers -/

def headerLen : ℕ := 8

def maxPayloadLen : ℕ := 16777216

namespace MessageType

def hello : UInt16 := 1
def welcome : UInt16 := 2
def getConfig : UInt16 := 3
def screenshot : UInt16 := 16
def error : UInt16 := 127

def isKnown (value : UInt16) : Bool :=
  value == hello || value == welcome || value == getConfig || value == screenshot || value == error

end MessageType

structure FrameHeader where
  payloadLen : UInt32
  messageType : UInt16
  flags : UInt16
  deriving DecidableEq, Repr

inductive FrameError where
  | truncated (len : ℕ)
  | payloadTooLong (payloadLen : UInt32)
  | unknownType (messageType : UInt16)
  | reservedFlags (flags : UInt16)
  | malformedScreenshot (minimum len : ℕ)
  deriving DecidableEq, Repr

theorem ofNat_leBytes32 (v : UInt32) : UInt32.ofNat (leValue (leBytes 4 v.toNat)) = v := by
  have hlt : v.toNat < 256 ^ 4 := v.toNat_lt
  rw [leValue_leBytes, Nat.mod_eq_of_lt hlt, UInt32.ofNat_toNat]

theorem ofNat_leBytes16 (v : UInt16) : UInt16.ofNat (leValue (leBytes 2 v.toNat)) = v := by
  have hlt : v.toNat < 256 ^ 2 := v.toNat_lt
  rw [leValue_leBytes, Nat.mod_eq_of_lt hlt, UInt16.ofNat_toNat]

namespace FrameHeader

def toBytes (header : FrameHeader) : List UInt8 :=
  leBytes 4 header.payloadLen.toNat ++ leBytes 2 header.messageType.toNat ++ leBytes 2 header.flags.toNat

/-- The conversion of the last bytes refuses more than a header, too. -/
def fromBytes (bytes : List UInt8) : Except FrameError FrameHeader :=
  if bytes.length < headerLen || (bytes.drop 6).length != 2 then .error (.truncated bytes.length)
  else
    let payloadLen := UInt32.ofNat (leValue (bytes.take 4))
    let messageType := UInt16.ofNat (leValue ((bytes.drop 4).take 2))
    let flags := UInt16.ofNat (leValue (bytes.drop 6))
    if maxPayloadLen < payloadLen.toNat then .error (.payloadTooLong payloadLen)
    else if !MessageType.isKnown messageType then .error (.unknownType messageType)
    else if flags != 0 then .error (.reservedFlags flags)
    else .ok ⟨payloadLen, messageType, flags⟩

@[simp] theorem length_toBytes (header : FrameHeader) : header.toBytes.length = headerLen := by
  simp [toBytes, headerLen]

theorem fromBytes_toBytes (header : FrameHeader) (hlen : header.payloadLen.toNat ≤ maxPayloadLen)
    (hknown : MessageType.isKnown header.messageType = true) (hflags : header.flags = 0) :
    fromBytes header.toBytes = .ok header := by
  have hlength := header.length_toBytes
  have htake : header.toBytes.take 4 = leBytes 4 header.payloadLen.toNat := by
    rw [toBytes, List.append_assoc, List.take_left' (by simp)]
  have hmiddle : (header.toBytes.drop 4).take 2 = leBytes 2 header.messageType.toNat := by
    rw [toBytes, List.append_assoc, List.drop_left' (by simp), List.take_left' (by simp)]
  have hlast : header.toBytes.drop 6 = leBytes 2 header.flags.toNat := by
    rw [toBytes, List.drop_left' (by simp)]
  have hwhole : (decide (header.toBytes.length < headerLen) || (header.toBytes.drop 6).length != 2) = false := by
    rw [hlength, hlast, leBytes_length]
    decide
  rw [fromBytes, hwhole, if_neg Bool.false_ne_true]
  simp only [htake, hmiddle, hlast, ofNat_leBytes32, ofNat_leBytes16, hknown, hflags]
  rw [if_neg (Nat.not_lt.mpr hlen), if_neg (by decide), if_neg (by decide), ← hflags]

end FrameHeader

/-! ## Screenshots -/

def screenshotSeqLen : ℕ := 4

def encodeScreenshot (seq : UInt32) (jpeg : List UInt8) : List UInt8 := leBytes screenshotSeqLen seq.toNat ++ jpeg

def decodeScreenshot (payload : List UInt8) : Except FrameError (UInt32 × List UInt8) :=
  if payload.length < screenshotSeqLen then .error (.malformedScreenshot screenshotSeqLen payload.length)
  else .ok (UInt32.ofNat (leValue (payload.take screenshotSeqLen)), payload.drop screenshotSeqLen)

theorem decode_encodeScreenshot (seq : UInt32) (jpeg : List UInt8) :
    decodeScreenshot (encodeScreenshot seq jpeg) = .ok (seq, jpeg) := by
  have hlength : (leBytes screenshotSeqLen seq.toNat).length = screenshotSeqLen := leBytes_length _ _
  have hlong : ¬ (encodeScreenshot seq jpeg).length < screenshotSeqLen := by
    rw [encodeScreenshot, List.length_append, hlength]
    omega
  rw [decodeScreenshot, if_neg hlong, encodeScreenshot, List.take_left' hlength, List.drop_left' hlength,
    screenshotSeqLen, ofNat_leBytes32]

theorem encode_decodeScreenshot {payload jpeg : List UInt8} {seq : UInt32}
    (h : decodeScreenshot payload = .ok (seq, jpeg)) : encodeScreenshot seq jpeg = payload := by
  unfold decodeScreenshot at h
  split at h
  case isTrue => cases h
  case isFalse hlong =>
    cases h
    have hlength : (payload.take screenshotSeqLen).length = 4 := by
      rw [List.length_take, Nat.min_eq_left (Nat.not_lt.mp hlong)]
      rfl
    have hlt : leValue (payload.take screenshotSeqLen) < 4294967296 := by
      have hmod := leValue_leBytes 4 (leValue (payload.take screenshotSeqLen))
      rw [← hlength, leBytes_leValue, hlength] at hmod
      omega
    have hvalue : (UInt32.ofNat (leValue (payload.take screenshotSeqLen))).toNat =
        leValue (payload.take screenshotSeqLen) := by
      rw [UInt32.toNat_ofNat', Nat.mod_eq_of_lt hlt]
    have hbytes : leBytes screenshotSeqLen (leValue (payload.take screenshotSeqLen)) =
        payload.take screenshotSeqLen := by
      have hinv := leBytes_leValue (payload.take screenshotSeqLen)
      rwa [hlength] at hinv
    rw [encodeScreenshot, hvalue, hbytes, List.take_append_drop]

/-! ## Writers and readers -/

structure Frame where
  messageType : UInt16
  payload : List UInt8
  deriving DecidableEq, Repr

inductive IpcServerError where
  | setup (text : String)
  | io (text : String)
  | protocol (error : FrameError)
  deriving DecidableEq, Repr

inductive IpcClientError where
  | io (text : String)
  | protocol (error : FrameError)
  deriving DecidableEq, Repr

section
variable {ε : Type}

/-- `send_frame`, and the error of a payload that no `u32` counts. -/
def sendFrame (exceeds : ε) (frame : Frame) : Except ε (List UInt8) :=
  if frame.payload.length < 4294967296 then
    .ok (FrameHeader.toBytes ⟨.ofNat frame.payload.length, frame.messageType, 0⟩ ++ frame.payload)
  else .error exceeds

/-- `read_exact`; nothing where the stream ends before. -/
def readExact (n : ℕ) (stream : List UInt8) : Option (List UInt8 × List UInt8) :=
  if n ≤ stream.length then some (stream.take n, stream.drop n) else none

def readHeader (violation : FrameError → ε) (refuse : FrameHeader → Option ε) (stream : List UInt8) :
    Reading UInt8 FrameHeader ε :=
  match readExact headerLen stream with
  | none => .stop .ended
  | some (header, rest) =>
    match FrameHeader.fromBytes header with
    | .error error => .stop (.failed (violation error))
    | .ok frame =>
      match refuse frame with
      | some error => .stop (.failed error)
      | none => .item frame rest

def readPayload (frame : FrameHeader) (stream : List UInt8) : Reading UInt8 Frame ε :=
  match readExact frame.payloadLen.toNat stream with
  | none => .stop .ended
  | some (payload, rest) => .item ⟨frame.messageType, payload⟩ rest

/-- A frame whose header nobody refuses. -/
def readFrame (violation : FrameError → ε) (refuse : FrameHeader → Option ε) (stream : List UInt8) :
    Reading UInt8 Frame ε :=
  match readHeader violation refuse stream with
  | .stop outcome => .stop outcome
  | .item frame rest => readPayload frame rest

end

namespace Server

def sendFrame (frame : Frame) : Except IpcServerError (List UInt8) := Ipc.sendFrame (.setup "frame exceeds u32") frame

/-- Before the payload is allocated. -/
def refuse (payloadCap : ℕ) (frame : FrameHeader) : Option IpcServerError :=
  if payloadCap < frame.payloadLen.toNat then
    some (.io ("declared payload of " ++ frame.payloadLen.toNat.repr ++ " bytes exceeds the " ++ payloadCap.repr ++
      "-byte cap"))
  else none

def readFrameOrDisconnect (payloadCap : ℕ) (stream : List UInt8) : Reading UInt8 Frame IpcServerError :=
  readFrame .protocol (refuse payloadCap) stream

end Server

namespace Client

def sendFrame (frame : Frame) : Except IpcClientError (List UInt8) := Ipc.sendFrame (.io "frame exceeds u32") frame

def readFrame (stream : List UInt8) : Reading UInt8 Frame IpcClientError :=
  Ipc.readFrame .protocol (fun _ => none) stream

end Client

/-! ## Round trip -/

/-- A frame of IPC v1. -/
structure KnownFrame extends Frame where
  known : MessageType.isKnown messageType = true
  short : payload.length ≤ maxPayloadLen

def sendAll {ε : Type} (send : Frame → Except ε (List UInt8)) : List Frame → Except ε (List UInt8)
  | [] => .ok []
  | frame :: frames => do
    let bytes ← send frame
    let more ← sendAll send frames
    return bytes ++ more

/-- What the writer sends the reader reads, and nothing behind it; of a stream that is cut it reads the frames
that lie before the cut. -/
def RoundTrips {ε ε' : Type} (send : Frame → Except ε (List UInt8)) (read : List UInt8 → Reading UInt8 Frame ε')
    (frames : List Frame) : Prop :=
  ∃ stream, sendAll send frames = .ok stream ∧ ∀ fuel > frames.length,
    readAll read fuel stream = (frames, some .ended) ∧
    ∀ cut, ∃ whole rest bytes, frames = whole ++ rest ∧ sendAll send whole = .ok bytes ∧ bytes.length ≤ cut ∧
      (∀ next ∈ rest.head?, ∃ longer, sendAll send (whole ++ [next]) = .ok longer ∧ cut < longer.length) ∧
      readAll read fuel (stream.take cut) = (whole, some .ended)

def encodeFrame (frame : Frame) : List UInt8 :=
  FrameHeader.toBytes ⟨.ofNat frame.payload.length, frame.messageType, 0⟩ ++ frame.payload

def Frame.Known (frame : Frame) : Prop :=
  MessageType.isKnown frame.messageType = true ∧ frame.payload.length ≤ maxPayloadLen

theorem toNat_payloadLen {frame : Frame} (h : frame.Known) :
    (UInt32.ofNat frame.payload.length).toNat = frame.payload.length := by
  have hshort : frame.payload.length ≤ 16777216 := h.2
  rw [UInt32.toNat_ofNat', Nat.mod_eq_of_lt (by omega)]

theorem fromBytes_encoded {frame : Frame} (h : frame.Known) :
    FrameHeader.fromBytes (FrameHeader.toBytes ⟨.ofNat frame.payload.length, frame.messageType, 0⟩) =
      .ok ⟨.ofNat frame.payload.length, frame.messageType, 0⟩ :=
  FrameHeader.fromBytes_toBytes _ (by rw [toNat_payloadLen h]; exact h.2) h.1 rfl

theorem readExact_append {n : ℕ} {bytes : List UInt8} (h : bytes.length = n) (rest : List UInt8) :
    readExact n (bytes ++ rest) = some (bytes, rest) := by
  rw [readExact, if_pos (by rw [List.length_append]; omega), List.take_left' h, List.drop_left' h]

theorem readExact_short {n : ℕ} {bytes : List UInt8} (h : bytes.length < n) : readExact n bytes = none :=
  if_neg (Nat.not_le.mpr h)

section
variable {ε : Type} {violation : FrameError → ε} {refuse : FrameHeader → Option ε}

theorem readHeader_encoded {frame : Frame} (h : frame.Known)
    (hrefuse : ∀ header : FrameHeader, header.payloadLen.toNat ≤ maxPayloadLen → refuse header = none)
    (rest : List UInt8) :
    readHeader violation refuse
        (FrameHeader.toBytes ⟨.ofNat frame.payload.length, frame.messageType, 0⟩ ++ rest) =
      .item ⟨.ofNat frame.payload.length, frame.messageType, 0⟩ rest := by
  rw [readHeader, readExact_append (FrameHeader.length_toBytes _)]
  simp only
  rw [fromBytes_encoded h]
  simp only
  rw [hrefuse _ (by rw [toNat_payloadLen h]; exact h.2)]

theorem readFrame_encode {frame : Frame} (h : frame.Known)
    (hrefuse : ∀ header : FrameHeader, header.payloadLen.toNat ≤ maxPayloadLen → refuse header = none)
    (rest : List UInt8) : readFrame violation refuse (encodeFrame frame ++ rest) = .item frame rest := by
  rw [readFrame, encodeFrame, List.append_assoc, readHeader_encoded h hrefuse]
  simp only
  rw [readPayload, toNat_payloadLen h, readExact_append rfl]

/-- Any proper beginning of a frame reads as the end of the stream. -/
theorem readFrame_cut {frame : Frame} (h : frame.Known)
    (hrefuse : ∀ header : FrameHeader, header.payloadLen.toNat ≤ maxPayloadLen → refuse header = none) {n : ℕ}
    (hn : n < (encodeFrame frame).length) :
    readFrame violation refuse ((encodeFrame frame).take n) = .stop .ended := by
  have hheader := FrameHeader.length_toBytes ⟨.ofNat frame.payload.length, frame.messageType, 0⟩
  rw [encodeFrame, List.length_append, hheader] at hn
  rw [encodeFrame, List.take_append, hheader]
  by_cases hcut : n < headerLen
  · have hshort : (List.take n (FrameHeader.toBytes ⟨.ofNat frame.payload.length, frame.messageType, 0⟩)).length <
        headerLen := by
      rw [List.length_take, hheader]
      omega
    rw [Nat.sub_eq_zero_of_le (Nat.le_of_lt hcut), List.take_zero, List.append_nil, readFrame, readHeader,
      readExact_short hshort]
  · have hshort : (frame.payload.take (n - headerLen)).length < (UInt32.ofNat frame.payload.length).toNat := by
      rw [toNat_payloadLen h, List.length_take]
      omega
    rw [List.take_of_length_le (by rw [hheader]; omega), readFrame, readHeader_encoded h hrefuse]
    simp only
    rw [readPayload, readExact_short hshort]

theorem sendAll_known {exceeds : ε} {frames : List Frame} (h : ∀ frame ∈ frames, frame.Known) :
    sendAll (sendFrame exceeds) frames = .ok (frames.flatMap encodeFrame) := by
  induction frames with
  | nil => rfl
  | cons frame frames ih =>
    obtain ⟨hframe, hframes⟩ := List.forall_mem_cons.mp h
    have hlt : frame.payload.length < 4294967296 := by
      have hshort : frame.payload.length ≤ 16777216 := hframe.2
      omega
    rw [sendAll, sendFrame, if_pos hlt, ih hframes]
    rfl

theorem roundTrips {ε' : Type} {exceeds : ε'} {frames : List Frame} (h : ∀ frame ∈ frames, frame.Known)
    (hrefuse : ∀ header : FrameHeader, header.payloadLen.toNat ≤ maxPayloadLen → refuse header = none) :
    RoundTrips (sendFrame exceeds) (readFrame violation refuse) frames := by
  have hitem (frame : Frame) (hframe : frame.Known) (rest : List UInt8) :=
    @readFrame_encode ε violation refuse frame hframe hrefuse rest
  have hshort (frame : Frame) (hframe : frame.Known) (n : ℕ) (hn : n < (encodeFrame frame).length) :=
    @readFrame_cut ε violation refuse frame hframe hrefuse n hn
  refine ⟨_, sendAll_known h, fun fuel hfuel => ⟨readAll_encode hitem hshort rfl h hfuel, fun cut => ?_⟩⟩
  obtain ⟨rest, hframes, hle, hnext⟩ := wholeBefore_spec encodeFrame cut frames
  have hwhole : ∀ frame ∈ wholeBefore encodeFrame cut frames, frame.Known := fun frame hmem =>
    h frame (by rw [hframes]; exact List.mem_append_left _ hmem)
  refine ⟨_, rest, _, hframes, sendAll_known hwhole, hle, fun next hmem => ⟨_, sendAll_known ?_, hnext next hmem⟩,
    readAll_take hitem hshort rfl h cut hfuel⟩
  intro frame hframe
  obtain hin | hlast := List.mem_append.mp hframe
  · exact hwhole frame hin
  · rw [List.mem_singleton.mp hlast]
    exact h next (by rw [hframes]; exact List.mem_append_right _ (List.mem_of_mem_head? hmem))

end

/-- Either side reads what the other sends, and a screenshot's payload and its two parts are one and the same. -/
theorem pipe_roundTrips :
    (∀ frames : List KnownFrame,
      RoundTrips Client.sendFrame (Server.readFrameOrDisconnect maxPayloadLen) (frames.map (·.toFrame)) ∧
        RoundTrips Server.sendFrame Client.readFrame (frames.map (·.toFrame))) ∧
      (∀ seq jpeg, decodeScreenshot (encodeScreenshot seq jpeg) = .ok (seq, jpeg)) ∧
      ∀ payload seq jpeg, decodeScreenshot payload = .ok (seq, jpeg) → encodeScreenshot seq jpeg = payload := by
  refine ⟨fun frames => ?_, decode_encodeScreenshot, fun _ _ _ => encode_decodeScreenshot⟩
  have hknown : ∀ frame ∈ frames.map (·.toFrame), frame.Known := by
    intro frame hmem
    obtain ⟨known, -, rfl⟩ := List.mem_map.mp hmem
    exact ⟨known.known, known.short⟩
  exact ⟨roundTrips hknown fun header hle => if_neg (Nat.not_lt.mpr hle), roundTrips hknown fun _ _ => rfl⟩

end SecOutfall.Ipc
