import SecOutfall.Foundations.Runs
import SecOutfall.Ipc.Frames

/-! One connection of the agent's pipe: `ClientSession::serve` and `serve_loop` of `ipc_server.rs`.

The bytes the client ever sends are given, and end where it closes the pipe. A round of the loop carries what
else may end its reads, what the pipe says of the client at that time, and how the round's write goes; behind
the last round the server is stopped. Serde is a parameter of the session. -/
namespace SecOutfall.Ipc.Server
open Framing Runs
set_option autoImplicit false

/-! ## Model -/

def ipcProtocolVersion : UInt16 := 1

def preHandshakeMaxPayload : ℕ := 4096

structure Hello where
  protocol : UInt16
  nonce : String
  moduleVersion : String
  deriving DecidableEq, Repr

/-- `wired` says whether a wire reporter is configured, `welcomeBody` is the serialised config push. -/
structure ClientSession where
  nonce : String
  wired : Bool
  welcomeBody : Except String (List UInt8)
  errorFrameBody : String → List UInt8
  parseHello : List UInt8 → Except String Hello

inductive Interrupt where
  | cancelled
  | failed (text : String)
  | elapsed
  deriving DecidableEq, Repr

inductive WriteAnswer where
  | written
  | failed (text : String)
  | late
  deriving DecidableEq, Repr

/-- The pid of the client, 0 if it cannot be had, and of the launched one, 0 if there is none. -/
structure PipeClient where
  pid : UInt32
  gate : UInt32
  isSystem : Bool
  deriving DecidableEq, Repr

structure Round where
  atHeader : Option Interrupt
  atPayload : Option Interrupt
  client : PipeClient
  write : WriteAnswer
  deriving DecidableEq, Repr

inductive Event where
  | allocated (size : ℕ)
  | received (frame : Frame) (client : PipeClient)
  | sent (frame : Frame)
  | screenshot (seq : UInt32) (jpeg : List UInt8)
  | started (moduleVersion : String) (pid : Option UInt32)
  | stopped (reason : Option IpcServerError)
  deriving DecidableEq, Repr

/-- `result` is what the loop has returned. -/
structure Connection where
  stream : List UInt8
  handshaked : Option String
  log : List Event
  result : Option (Except IpcServerError Unit)

inductive Received where
  | frame (frame : Frame)
  | gone
  | elapsed
  | failed (error : IpcServerError)

/-- `constant_time_eq`. -/
def constantTimeEq (a b : List UInt8) : Bool :=
  if a.length != b.length then false
  else (a.zip b).foldl (fun acc (x, y) => acc ||| (x ^^^ y)) 0 == 0

namespace Connection

def connect (stream : List UInt8) : Connection := ⟨stream, none, [], none⟩

def emit (s : Connection) (event : Event) : Connection := { s with log := s.log ++ [event] }

def finish (s : Connection) (result : Except IpcServerError Unit) : Connection := { s with result := some result }

/-- There is a deadline until the handshake. -/
def interruption (s : Connection) : Option Interrupt → Option Received
  | some .cancelled => some .gone
  | some (.failed text) => some (.failed (.io text))
  | some .elapsed => if s.handshaked.isNone then some .elapsed else none
  | none => none

def payloadCap (s : Connection) : ℕ := if s.handshaked.isNone then preHandshakeMaxPayload else maxPayloadLen

/-- `read_frame_or_disconnect` under what the round does to it. -/
def receive (s : Connection) (round : Round) : Received × Connection :=
  match s.interruption round.atHeader with
  | some received => (received, s)
  | none =>
    match readHeader .protocol (refuse s.payloadCap) s.stream with
    | .stop .ended => (.gone, s)
    | .stop (.failed error) => (.failed error, s)
    | .item header rest =>
      let s := s.emit (.allocated header.payloadLen.toNat)
      match s.interruption round.atPayload with
      | some received => (received, s)
      | none =>
        match (readPayload header rest : Reading UInt8 Frame IpcServerError) with
        | .stop _ => (.gone, s)
        | .item frame rest => (.frame frame, { s with stream := rest })

/-- A write, and its error. -/
def send (s : Connection) (round : Round) (frame : Frame) : Option IpcServerError × Connection :=
  match sendFrame frame with
  | .error error => (some error, s)
  | .ok _ =>
    match round.write with
    | .failed text => (some (.io text), s.emit (.sent frame))
    | _ => (none, s.emit (.sent frame))

/-- The write of an answer that ends the connection if it fails. -/
def answer (s : Connection) (round : Round) (frame : Frame) : Connection :=
  match s.send round frame with
  | (some error, s) => s.finish (.error error)
  | (none, s) => s

end Connection

section
variable (session : ClientSession)

def errorFrame (message : String) : Frame := ⟨MessageType.error, session.errorFrameBody message⟩

def sendWelcome (s : Connection) (round : Round) : Connection :=
  match session.welcomeBody with
  | .error text => s.finish (.error (.io text))
  | .ok body => s.answer round ⟨MessageType.welcome, body⟩

def handleHello (s : Connection) (round : Round) (payload : List UInt8) : Connection :=
  match session.parseHello payload with
  | .error text => s.finish (.error (.io ("bad HELLO: " ++ text)))
  | .ok hello =>
    let nonceOk := hello.protocol == ipcProtocolVersion &&
      constantTimeEq hello.nonce.toByteArray.data.toList session.nonce.toByteArray.data.toList
    let pidOk := round.client.gate == 0 || round.client.pid == round.client.gate || round.client.isSystem
    if !nonceOk || !pidOk then
      match s.send round (errorFrame session "handshake rejected") with
      | (some error, s) => s.finish (.error error)
      | (none, s) => s.finish (.ok ())
    else
      let s := { s with handshaked := some hello.moduleVersion }
      let s :=
        if session.wired then
          s.emit (.started hello.moduleVersion (if round.client.pid != 0 then some round.client.pid else none))
        else s
      sendWelcome session s round

def handleFrame (s : Connection) (round : Round) (frame : Frame) : Connection :=
  if frame.messageType = MessageType.hello then handleHello session s round frame.payload
  else if frame.messageType = MessageType.getConfig then sendWelcome session s round
  else if frame.messageType = MessageType.screenshot then
    match decodeScreenshot frame.payload with
    | .error error => s.finish (.error (.protocol error))
    | .ok (seq, jpeg) => s.emit (.screenshot seq jpeg)
  else if frame.messageType = MessageType.error then s
  else s.finish (.ok ())

/-- One round of the loop. -/
def serveStep (s : Connection) (round : Round) : Connection :=
  if s.result.isSome then s
  else
    match s.receive round with
    | (.failed error, s) => s.finish (.error error)
    | (.elapsed, s) => (s.send round (errorFrame session "handshake timeout")).2.finish (.ok ())
    | (.gone, s) => s.finish (.ok ())
    | (.frame frame, s) =>
      let s := s.emit (.received frame round.client)
      if s.handshaked.isNone && frame.messageType != MessageType.hello then
        -- a write that fails in time is not looked at
        let s := (s.send round (errorFrame session "handshake required")).2
        if round.write = .late then s.finish (.ok ()) else s
      else handleFrame session s round frame

def serve (stream : List UInt8) (rounds : List Round) : Connection :=
  let s := run (serveStep session) (Connection.connect stream) rounds
  let result := s.result.getD (.ok ())
  let s := s.finish result
  if s.handshaked.isSome && session.wired then
    s.emit (.stopped (match result with | .error error => some error | .ok () => none))
  else s

/-! ## The gate -/

/-- A HELLO with the right version and nonce, from a client that may send it. -/
def acceptable (frame : Frame) (client : PipeClient) : Bool :=
  frame.messageType == MessageType.hello &&
    match session.parseHello frame.payload with
    | .error _ => false
    | .ok hello => hello.protocol == ipcProtocolVersion && hello.nonce == session.nonce &&
      (client.gate == 0 || client.pid == client.gate || client.isSystem)

/-- What needs a handshake before it. -/
def Event.isGuarded : Event → Bool
  | .sent frame => frame.messageType == MessageType.welcome
  | .screenshot _ _ => true
  | .allocated size => preHandshakeMaxPayload < size
  | _ => false

/-- What may follow a HELLO that is not accepted. -/
def Event.isFarewell : Event → Bool
  | .sent frame => frame.messageType == MessageType.error
  | .stopped _ => true
  | _ => false

structure Guarded (log : List Event) : Prop where
  opened : ∀ before event after, log = before ++ event :: after → event.isGuarded = true →
    ∃ frame client, .received frame client ∈ before ∧ acceptable session frame client = true
  rejected : ∀ before frame client after, log = before ++ .received frame client :: after →
    frame.messageType = MessageType.hello → acceptable session frame client = false →
    ∀ event ∈ after, event.isFarewell = true

end

section
variable {session : ClientSession} {s s' : Connection}

/-! ## Nonces -/

theorem foldl_xor_eq_zero (pairs : List (UInt8 × UInt8)) (acc : UInt8) :
    pairs.foldl (fun acc (x, y) => acc ||| (x ^^^ y)) acc = 0 ↔ acc = 0 ∧ ∀ pair ∈ pairs, pair.1 = pair.2 := by
  induction pairs generalizing acc with
  | nil => simp
  | cons pair pairs ih =>
    rw [List.foldl_cons, ih, UInt8.or_eq_zero_iff, UInt8.xor_eq_zero_iff, List.forall_mem_cons, and_assoc]

/-- The fold compares. -/
theorem constantTimeEq_iff (a b : List UInt8) : constantTimeEq a b = true ↔ a = b := by
  unfold constantTimeEq
  by_cases hlength : a.length = b.length
  · rw [if_neg (by simpa using hlength), beq_iff_eq, foldl_xor_eq_zero]
    constructor
    · rintro ⟨-, hpairs⟩
      exact List.ext_getElem hlength fun i hi hi' =>
        hpairs (a[i], b[i]) (List.mem_iff_getElem.mpr ⟨i, by simp [hi, hi'], by simp⟩)
    · rintro rfl
      refine ⟨rfl, fun pair hmem => ?_⟩
      obtain ⟨i, hi, rfl⟩ := List.mem_iff_getElem.mp hmem
      simp
  · rw [if_pos (by simpa using hlength)]
    exact iff_of_false Bool.false_ne_true fun h => hlength (congrArg List.length h)

theorem constantTimeEq_nonce (a b : String) :
    constantTimeEq a.toByteArray.data.toList b.toByteArray.data.toList = (a == b) := by
  rw [Bool.eq_iff_iff, constantTimeEq_iff, Array.toList_inj, ← ByteArray.ext_iff, String.toByteArray_inj, beq_iff_eq]

/-! ## Steps -/

/-- No HELLO was rejected so far, and nothing that is guarded came first. -/
structure Live (session : ClientSession) (s : Connection) : Prop where
  opened : ∀ before event after, s.log = before ++ event :: after → event.isGuarded = true →
    ∃ frame client, .received frame client ∈ before ∧ acceptable session frame client = true
  handshaked : s.handshaked.isSome → ∃ frame client, .received frame client ∈ s.log ∧
    acceptable session frame client = true
  hellos : ∀ frame client, .received frame client ∈ s.log → frame.messageType = MessageType.hello →
    acceptable session frame client = true

theorem Live.guarded (h : Live session s) : Guarded session s.log := by
  refine ⟨h.opened, fun before frame client after hlog hhello hrejected => ?_⟩
  have haccepted := h.hellos frame client (by rw [hlog]; simp) hhello
  exact absurd (hrejected.symm.trans haccepted) Bool.false_ne_true

theorem Live.congr (h : Live session s) (hlog : s'.log = s.log) (hhandshaked : s'.handshaked = s.handshaked) :
    Live session s' :=
  ⟨by rw [hlog]; exact h.opened, by rw [hlog, hhandshaked]; exact h.handshaked, by rw [hlog]; exact h.hellos⟩

/-- A split of a longer log is one of the log, or at its last event. -/
theorem eq_or_split_concat {before after log : List Event} {event last : Event}
    (h : log ++ [last] = before ++ event :: after) :
    (after = [] ∧ before = log ∧ event = last) ∨ ∃ shorter, after = shorter ++ [last] ∧ log = before ++ event :: shorter := by
  obtain rfl | ⟨shorter, end', rfl⟩ := after.eq_nil_or_concat
  · obtain ⟨rfl, hlast⟩ := List.append_inj' h rfl
    cases hlast
    exact .inl ⟨rfl, rfl, rfl⟩
  · rw [List.concat_eq_append, ← List.cons_append, ← List.append_assoc] at h
    obtain ⟨hlog, hlast⟩ := List.append_inj' h rfl
    cases hlast
    exact .inr ⟨shorter, List.concat_eq_append, hlog⟩

theorem Live.emit (h : Live session s) {event : Event}
    (hguarded : event.isGuarded = true → s.handshaked.isSome)
    (hreceived : ∀ frame client, event = .received frame client → frame.messageType = MessageType.hello →
      acceptable session frame client = true) : Live session (s.emit event) := by
  refine ⟨fun before other after hlog hother => ?_, fun hhandshaked => ?_, fun frame client hmem hhello => ?_⟩
  · obtain ⟨-, rfl, rfl⟩ | ⟨shorter, -, hsplit⟩ := eq_or_split_concat hlog
    · exact h.handshaked (hguarded hother)
    · exact h.opened before other shorter hsplit hother
  · obtain ⟨frame, client, hmem, haccepted⟩ := h.handshaked hhandshaked
    exact ⟨frame, client, List.mem_append_left _ hmem, haccepted⟩
  · obtain hmem | hmem := List.mem_append.mp hmem
    · exact h.hellos frame client hmem hhello
    · exact hreceived frame client (List.mem_singleton.mp hmem).symm hhello

theorem Live.finish (h : Live session s) (result : Except IpcServerError Unit) : Live session (s.finish result) :=
  h.congr rfl rfl

theorem Live.send (h : Live session s) {round : Round} {frame : Frame}
    (hwelcome : frame.messageType = MessageType.welcome → s.handshaked.isSome) :
    Live session (s.send round frame).2 := by
  have hemit : Live session (s.emit (.sent frame)) :=
    h.emit (fun hguarded => hwelcome (beq_iff_eq.mp hguarded)) fun _ _ heq => by cases heq
  unfold Connection.send
  cases sendFrame frame with
  | error error => exact h
  | ok bytes => cases round.write <;> exact hemit

theorem Live.answer (h : Live session s) {round : Round} {frame : Frame}
    (hwelcome : frame.messageType = MessageType.welcome → s.handshaked.isSome) :
    Live session (s.answer round frame) := by
  have hsent : Live session (s.send round frame).2 := h.send hwelcome
  unfold Connection.answer
  cases hsend : s.send round frame with
  | mk error s' =>
    rw [hsend] at hsent
    cases error with
    | none => exact hsent
    | some error => exact hsent.finish _

theorem Live.sendWelcome (h : Live session s) {round : Round} (hhandshaked : s.handshaked.isSome) :
    Live session (sendWelcome session s round) := by
  unfold Server.sendWelcome
  cases session.welcomeBody with
  | error text => exact h.finish _
  | ok body => exact h.answer fun _ => hhandshaked

theorem refuse_eq_none {cap : ℕ} {header : FrameHeader} (h : refuse cap header = none) :
    header.payloadLen.toNat ≤ cap := by
  unfold refuse at h
  split at h
  · cases h
  · exact Nat.not_lt.mp ‹_›

theorem readHeader_le {cap : ℕ} {stream rest : List UInt8} {header : FrameHeader}
    (h : readHeader .protocol (refuse cap) stream = .item header rest) : header.payloadLen.toNat ≤ cap := by
  unfold readHeader at h
  cases hread : readExact headerLen stream with
  | none => simp [hread] at h
  | some bytes =>
    simp only [hread] at h
    cases hheader : FrameHeader.fromBytes bytes.1 with
    | error error => simp [hheader] at h
    | ok parsed =>
      simp only [hheader] at h
      cases hrefuse : refuse cap parsed with
      | some error => simp [hrefuse] at h
      | none =>
        simp only [hrefuse, Reading.item.injEq] at h
        exact h.1 ▸ refuse_eq_none hrefuse

/-- A read notes at most one buffer, within the cap. -/
theorem receive_log (s : Connection) (round : Round) :
    (s.receive round).2.handshaked = s.handshaked ∧ (s.receive round).2.result = s.result ∧
      ((s.receive round).2.log = s.log ∨ ∃ size ≤ s.payloadCap, (s.receive round).2.log = s.log ++ [.allocated size]) := by
  unfold Connection.receive
  cases s.interruption round.atHeader with
  | some received => exact ⟨rfl, rfl, .inl rfl⟩
  | none =>
    dsimp only
    cases hheader : readHeader .protocol (refuse s.payloadCap) s.stream with
    | stop outcome => cases outcome <;> exact ⟨rfl, rfl, .inl rfl⟩
    | item header rest =>
      have hsize := readHeader_le hheader
      dsimp only
      cases (s.emit (.allocated header.payloadLen.toNat)).interruption round.atPayload with
      | some received => exact ⟨rfl, rfl, .inr ⟨_, hsize, rfl⟩⟩
      | none =>
        dsimp only
        cases (readPayload header rest : Reading UInt8 Frame IpcServerError) with
        | stop outcome => exact ⟨rfl, rfl, .inr ⟨_, hsize, rfl⟩⟩
        | item frame rest => exact ⟨rfl, rfl, .inr ⟨_, hsize, rfl⟩⟩

theorem Live.receive (h : Live session s) (round : Round) : Live session (s.receive round).2 := by
  obtain ⟨hhandshaked, -, hlog | ⟨size, hsize, hlog⟩⟩ := receive_log s round
  · exact h.congr hlog hhandshaked
  · refine Live.congr (s := s.emit (.allocated size)) (h.emit (fun hguarded => ?_) fun _ _ heq => by cases heq) hlog
      hhandshaked
    by_contra hnone
    have hcap : s.payloadCap = preHandshakeMaxPayload := if_pos (by simpa using hnone)
    exact absurd (of_decide_eq_true hguarded) (by omega)

/-- The connection as an accepted HELLO leaves it before the reply. -/
def greeted (session : ClientSession) (s : Connection) (round : Round) (hello : Hello) : Connection :=
  let s := { s with handshaked := some hello.moduleVersion }
  if session.wired then
    s.emit (.started hello.moduleVersion (if round.client.pid != 0 then some round.client.pid else none))
  else s

theorem handleHello_accepted {frame : Frame} {round : Round} (h : acceptable session frame round.client = true) :
    ∃ hello, handleHello session s round frame.payload = sendWelcome session (greeted session s round hello) round := by
  unfold acceptable at h
  cases hparse : session.parseHello frame.payload with
  | error text => simp [hparse] at h
  | ok hello =>
    simp only [hparse, Bool.and_eq_true] at h
    obtain ⟨-, ⟨hprotocol, hnonce⟩, hpid⟩ := h
    refine ⟨hello, ?_⟩
    simp only [handleHello, hparse, constantTimeEq_nonce, hprotocol, hnonce, hpid, greeted]
    rfl

/-- Any other ends the connection, with an ERROR at most. -/
theorem handleHello_rejected {frame : Frame} {round : Round} (hhello : frame.messageType = MessageType.hello)
    (h : acceptable session frame round.client = false) :
    (handleHello session s round frame.payload).result.isSome ∧
      (handleHello session s round frame.payload).handshaked = s.handshaked ∧
      ((handleHello session s round frame.payload).log = s.log ∨
        (handleHello session s round frame.payload).log =
          s.log ++ [.sent (errorFrame session "handshake rejected")]) := by
  unfold acceptable at h
  unfold handleHello
  cases hparse : session.parseHello frame.payload with
  | error text => exact ⟨rfl, rfl, .inl rfl⟩
  | ok hello =>
    simp only [hparse, hhello, beq_self_eq_true, Bool.true_and] at h
    have hrefused : (!(hello.protocol == ipcProtocolVersion && hello.nonce == session.nonce) ||
        !(round.client.gate == 0 || round.client.pid == round.client.gate || round.client.isSystem)) = true := by
      rw [← Bool.not_and, h]
      rfl
    simp only [constantTimeEq_nonce, hrefused, if_true]
    unfold Connection.send
    cases sendFrame (errorFrame session "handshake rejected") with
    | error error => exact ⟨rfl, rfl, .inl rfl⟩
    | ok bytes => cases round.write <;> exact ⟨rfl, rfl, .inr rfl⟩

theorem Live.greeted (h : Live session s) {frame : Frame} {round : Round}
    (hreceived : .received frame round.client ∈ s.log) (haccepted : acceptable session frame round.client = true)
    (hello : Hello) : Live session (greeted session s round hello) := by
  have hopen : Live session { s with handshaked := some hello.moduleVersion } :=
    ⟨h.opened, fun _ => ⟨frame, round.client, hreceived, haccepted⟩, h.hellos⟩
  unfold Server.greeted
  cases session.wired with
  | false => exact hopen
  | true => exact hopen.emit (fun _ => rfl) fun _ _ heq => by cases heq

theorem greeted_handshaked (session : ClientSession) (s : Connection) (round : Round) (hello : Hello) :
    (Server.greeted session s round hello).handshaked = some hello.moduleVersion := by
  unfold Server.greeted
  cases session.wired <;> rfl

/-- A frame that is no rejected HELLO, behind a handshake unless it is a HELLO. -/
theorem Live.handleFrame (h : Live session s) {frame : Frame} {round : Round}
    (hreceived : .received frame round.client ∈ s.log)
    (hready : s.handshaked.isNone = true → frame.messageType = MessageType.hello)
    (haccepted : frame.messageType = MessageType.hello → acceptable session frame round.client = true) :
    Live session (handleFrame session s round frame) := by
  have hopen (hne : frame.messageType ≠ MessageType.hello) : s.handshaked.isSome = true := by
    by_contra hnone
    exact hne (hready (by simpa using hnone))
  unfold Server.handleFrame
  split
  case isTrue hhello =>
    obtain ⟨hello, heq⟩ := handleHello_accepted (s := s) (haccepted hhello)
    rw [heq]
    exact (h.greeted hreceived (haccepted hhello) hello).sendWelcome (by rw [greeted_handshaked]; rfl)
  case isFalse hne =>
    split
    case isTrue => exact h.sendWelcome (hopen hne)
    case isFalse =>
      split
      case isTrue =>
        cases decodeScreenshot frame.payload with
        | error error => exact h.finish _
        | ok screenshot => exact h.emit (fun _ => hopen hne) fun _ _ heq => by cases heq
      case isFalse =>
        split
        · exact h
        · exact h.finish _

theorem Guarded.farewell {log : List Event} {event : Event} (h : Guarded session log)
    (hfarewell : event.isFarewell = true) (hunguarded : event.isGuarded = false) :
    Guarded session (log ++ [event]) := by
  refine ⟨fun before other after hlog hguarded => ?_, fun before frame client after hlog hhello hrejected => ?_⟩
  · obtain ⟨-, -, rfl⟩ | ⟨shorter, -, hsplit⟩ := eq_or_split_concat hlog
    · exact absurd (hunguarded.symm.trans hguarded) Bool.false_ne_true
    · exact h.opened before other shorter hsplit hguarded
  · obtain ⟨-, -, rfl⟩ | ⟨shorter, rfl, hsplit⟩ := eq_or_split_concat hlog
    · cases hfarewell
    · intro other hother
      obtain hother | hother := List.mem_append.mp hother
      · exact h.rejected before frame client shorter hsplit hhello hrejected other hother
      · rw [List.mem_singleton.mp hother]
        exact hfarewell

/-- A received frame, be it a rejected HELLO. -/
theorem Live.received (h : Live session s) (frame : Frame) (client : PipeClient) :
    Guarded session (s.log ++ [.received frame client]) := by
  refine ⟨fun before other after hlog hguarded => ?_, fun before other client' after hlog hhello hrejected => ?_⟩
  · obtain ⟨-, -, rfl⟩ | ⟨shorter, -, hsplit⟩ := eq_or_split_concat hlog
    · cases hguarded
    · exact h.opened before other shorter hsplit hguarded
  · obtain ⟨rfl, -, -⟩ | ⟨shorter, -, hsplit⟩ := eq_or_split_concat hlog
    · exact fun event hmem => absurd hmem List.not_mem_nil
    · have hmem : Event.received other client' ∈ s.log := by
        rw [hsplit]
        simp
      exact absurd (hrejected.symm.trans (h.hellos other client' hmem hhello)) Bool.false_ne_true

/-- The log is guarded, and that of a loop that goes on has no rejected HELLO. -/
def Sound (session : ClientSession) (s : Connection) : Prop :=
  Guarded session s.log ∧ (s.result = none → Live session s)

theorem Live.sound (h : Live session s) : Sound session s := ⟨h.guarded, fun _ => h⟩

theorem Live.rejected (h : Live session s) {frame : Frame} {round : Round}
    (hhello : frame.messageType = MessageType.hello) (hrejected : acceptable session frame round.client = false) :
    Sound session (Server.handleFrame session (s.emit (.received frame round.client)) round frame) := by
  unfold Server.handleFrame
  rw [if_pos hhello]
  obtain ⟨hdone, -, hlog⟩ := handleHello_rejected (s := s.emit (.received frame round.client)) hhello hrejected
  refine ⟨?_, fun hgoes => absurd hdone (by simp [hgoes])⟩
  have hguarded := h.received frame round.client
  obtain hlog | hlog := hlog
  · rw [hlog]
    exact hguarded
  · rw [hlog]
    exact hguarded.farewell rfl rfl

theorem Sound.serveStep (h : Sound session s) (round : Round) : Sound session (serveStep session s round) := by
  unfold Server.serveStep
  split
  case isTrue => exact h
  case isFalse hgoes =>
    have hlive : Live session (s.receive round).2 := (h.2 (by simpa using hgoes)).receive round
    cases hreceive : s.receive round with
    | mk received s' =>
      rw [hreceive] at hlive
      cases received with
      | failed error => exact (hlive.finish _).sound
      | elapsed => exact ((hlive.send fun heq => by cases heq).finish _).sound
      | gone => exact (hlive.finish _).sound
      | frame frame =>
        have hemit (haccepted : frame.messageType = MessageType.hello →
            acceptable session frame round.client = true) : Live session (s'.emit (.received frame round.client)) :=
          hlive.emit (fun hguarded => by cases hguarded) fun frame' client heq hhello => by
            cases heq
            exact haccepted hhello
        dsimp only
        split
        case isTrue hearly =>
          simp only [Bool.and_eq_true, bne_iff_ne] at hearly
          have hsent : Live session (((s'.emit (.received frame round.client)).send round
              (errorFrame session "handshake required")).2) :=
            (hemit fun hhello => absurd hhello hearly.2).send fun heq => by cases heq
          split
          · exact (hsent.finish _).sound
          · exact hsent.sound
        case isFalse hready =>
          simp only [Bool.and_eq_true, bne_iff_ne, not_and, not_not] at hready
          by_cases haccepted : frame.messageType = MessageType.hello →
              acceptable session frame round.client = true
          · exact ((hemit haccepted).handleFrame (List.mem_append_right _ (List.mem_singleton_self _)) hready
              haccepted).sound
          · push Not at haccepted
            exact hlive.rejected haccepted.1 (by simpa using haccepted.2)

/-! ## Whole connections -/

theorem sound_connect (session : ClientSession) (stream : List UInt8) : Sound session (Connection.connect stream) := by
  refine Live.sound ⟨fun before event after hlog => ?_, fun h => ?_, fun _ _ hmem => ?_⟩
  · exact absurd hlog.symm (by simp [Connection.connect])
  · cases h
  · exact absurd hmem List.not_mem_nil

theorem serve_guarded (session : ClientSession) (stream : List UInt8) (rounds : List Round) :
    Guarded session (serve session stream rounds).log := by
  have hrun : Sound session (run (serveStep session) (Connection.connect stream) rounds) :=
    run_invariant (fun _ round h => h.serveStep round) (sound_connect session stream) rounds
  unfold serve
  dsimp only
  split
  · exact hrun.1.farewell rfl rfl
  · exact hrun.1

end
end SecOutfall.Ipc.Server
