import SecOutfall.Ipc.Client
import SecOutfall.Ipc.Server

/-! Screenshots across the pipe: what the client writes on its connections, served by the agent.

The agent serves each connection on a task of its own. Of what was written on it, the bytes up to some cut arrive. -/
namespace SecOutfall.Ipc.Server
open Framing Runs
open Client (Shot shotFrame)
set_option autoImplicit false

/-! ## Frames off a stream that is cut -/

theorem fromBytes_eq {header parsed : FrameHeader} (h : FrameHeader.fromBytes header.toBytes = .ok parsed) :
    parsed = header := by
  have htake : header.toBytes.take 4 = Bytes.leBytes 4 header.payloadLen.toNat := by
    rw [FrameHeader.toBytes, List.append_assoc, List.take_left' (by simp)]
  have hmiddle : (header.toBytes.drop 4).take 2 = Bytes.leBytes 2 header.messageType.toNat := by
    rw [FrameHeader.toBytes, List.append_assoc, List.drop_left' (by simp), List.take_left' (by simp)]
  have hlast : header.toBytes.drop 6 = Bytes.leBytes 2 header.flags.toNat := by
    rw [FrameHeader.toBytes, List.drop_left' (by simp)]
  unfold FrameHeader.fromBytes at h
  rw [htake, hmiddle, hlast, ofNat_leBytes32, ofNat_leBytes16, ofNat_leBytes16] at h
  split at h
  · cases h
  · dsimp only at h
    split at h
    · cases h
    · split at h
      · cases h
      · split at h
        · cases h
        · exact (Except.ok.inj h).symm

theorem readExact_prefix {n : ℕ} {stream bytes more front rest : List UInt8} (hlength : bytes.length = n)
    (hstream : stream <+: bytes ++ more) (hread : readExact n stream = some (front, rest)) :
    front = bytes ∧ rest <+: more := by
  unfold readExact at hread
  split at hread
  · rename_i hfits
    obtain ⟨rfl, rfl⟩ := Prod.mk.inj (Option.some.inj hread)
    obtain ⟨behind, hbehind⟩ := hstream
    have hfront : (stream ++ behind).take n = stream.take n := List.take_append_of_le_length hfits
    have hrest : (stream ++ behind).drop n = stream.drop n ++ behind := List.drop_append_of_le_length hfits
    rw [hbehind, List.take_left' hlength] at hfront
    rw [hbehind, List.drop_left' hlength] at hrest
    exact ⟨hfront.symm, behind, hrest.symm⟩
  · cases hread

theorem readHeader_prefix {cap : ℕ} {stream more rest : List UInt8} {header : FrameHeader} {frame : Frame}
    (hstream : stream <+: encodeFrame frame ++ more)
    (hread : readHeader .protocol (refuse cap) stream = .item header rest) :
    header = ⟨.ofNat frame.payload.length, frame.messageType, 0⟩ ∧ rest <+: frame.payload ++ more := by
  unfold readHeader at hread
  rw [encodeFrame, List.append_assoc] at hstream
  cases hexact : readExact headerLen stream with
  | none => simp [hexact] at hread
  | some found =>
    obtain ⟨front, behind⟩ := found
    obtain ⟨rfl, hbehind⟩ := readExact_prefix (FrameHeader.length_toBytes _) hstream hexact
    simp only [hexact] at hread
    cases hparsed : FrameHeader.fromBytes
        (FrameHeader.toBytes ⟨.ofNat frame.payload.length, frame.messageType, 0⟩) with
    | error error => simp [hparsed] at hread
    | ok parsed =>
      obtain rfl := fromBytes_eq hparsed
      simp only [hparsed] at hread
      split at hread
      · cases hread
      · cases hread
        exact ⟨rfl, hbehind⟩

theorem readPayload_prefix {stream more rest : List UInt8} {frame read : Frame}
    (hshort : frame.payload.length < 4294967296) (hstream : stream <+: frame.payload ++ more)
    (hread : (readPayload ⟨.ofNat frame.payload.length, frame.messageType, 0⟩ stream :
      Reading UInt8 Frame IpcServerError) = .item read rest) : read = frame ∧ rest <+: more := by
  have hlength : (UInt32.ofNat frame.payload.length).toNat = frame.payload.length := by
    rw [UInt32.toNat_ofNat', Nat.mod_eq_of_lt hshort]
  unfold readPayload at hread
  rw [hlength] at hread
  cases hexact : readExact frame.payload.length stream with
  | none => simp [hexact] at hread
  | some found =>
    obtain ⟨payload, behind⟩ := found
    obtain ⟨rfl, hbehind⟩ := readExact_prefix rfl hstream hexact
    simp only [hexact] at hread
    cases hread
    exact ⟨rfl, hbehind⟩

section
variable {session : ClientSession} {s s' : Connection}

theorem interruption_ne_frame (s : Connection) (interrupt : Option Interrupt) (frame : Frame) :
    s.interruption interrupt ≠ some (.frame frame) := by
  unfold Connection.interruption
  split
  · nofun
  · nofun
  · split <;> nofun
  · nofun

/-- What the agent receives is the next frame, whole. -/
theorem receive_next {frames : List Frame} (hshort : ∀ frame ∈ frames, frame.payload.length < 4294967296)
    (hstream : s.stream <+: frames.flatMap encodeFrame) {round : Round} {frame : Frame}
    (hreceive : s.receive round = (.frame frame, s')) :
    ∃ rest, frames = frame :: rest ∧ s'.stream <+: rest.flatMap encodeFrame := by
  unfold Connection.receive at hreceive
  split at hreceive
  · rename_i hinterrupt
    cases hreceive
    exact absurd hinterrupt (interruption_ne_frame s _ frame)
  · split at hreceive
    · cases hreceive
    · cases hreceive
    · rename_i header behind hheader
      cases frames with
      | nil =>
        rw [List.prefix_nil.mp hstream] at hheader
        cases hheader
      | cons first rest =>
        rw [List.flatMap_cons] at hstream
        obtain ⟨rfl, hbehind⟩ := readHeader_prefix hstream hheader
        dsimp only at hreceive
        split at hreceive
        · rename_i hinterrupt
          cases hreceive
          exact absurd hinterrupt (interruption_ne_frame _ _ frame)
        · split at hreceive
          · cases hreceive
          · rename_i hpayload
            obtain ⟨rfl, hrest⟩ := readPayload_prefix (hshort first List.mem_cons_self) hbehind hpayload
            cases hreceive
            exact ⟨rest, rfl, hrest⟩

/-! ## What a connection shows -/

def Event.shot : Event → Option Shot
  | .screenshot seq jpeg => some (seq, jpeg)
  | _ => none

/-- The screenshots handed to the pipeline. -/
def screenshots (log : List Event) : List Shot := log.filterMap Event.shot

/-- The stream, the handshake and the screenshots are as they were. -/
structure Beside (s s' : Connection) : Prop where
  stream : s'.stream = s.stream
  handshaked : s'.handshaked = s.handshaked
  shown : screenshots s'.log = screenshots s.log

theorem Beside.refl (s : Connection) : Beside s s := ⟨rfl, rfl, rfl⟩

theorem Beside.emit (s : Connection) {event : Event} (h : event.shot = none) : Beside s (s.emit event) := by
  refine ⟨rfl, rfl, ?_⟩
  simp [screenshots, Connection.emit, h]

theorem Beside.finish (h : Beside s s') (result : Except IpcServerError Unit) : Beside s (s'.finish result) :=
  ⟨h.stream, h.handshaked, h.shown⟩

theorem Beside.trans {s'' : Connection} (h : Beside s s') (h' : Beside s' s'') : Beside s s'' :=
  ⟨h'.stream.trans h.stream, h'.handshaked.trans h.handshaked, h'.shown.trans h.shown⟩

theorem Beside.send (s : Connection) (round : Round) (frame : Frame) : Beside s (s.send round frame).2 := by
  unfold Connection.send
  cases sendFrame frame with
  | error error => exact .refl s
  | ok bytes => cases round.write <;> exact .emit s rfl

theorem Beside.sendWelcome (session : ClientSession) (s : Connection) (round : Round) :
    Beside s (sendWelcome session s round) := by
  unfold Server.sendWelcome
  cases session.welcomeBody with
  | error text => exact (Beside.refl s).finish _
  | ok body =>
    have hsent := Beside.send s round ⟨MessageType.welcome, body⟩
    dsimp only [Connection.answer]
    cases hsend : s.send round ⟨MessageType.welcome, body⟩ with
    | mk error s' =>
      rw [hsend] at hsent
      cases error with
      | none => exact hsent
      | some error => exact hsent.finish _

theorem receive_shown (s : Connection) (round : Round) :
    screenshots (s.receive round).2.log = screenshots s.log ∧ (s.receive round).2.handshaked = s.handshaked := by
  obtain ⟨hhandshaked, -, hlog | ⟨size, -, hlog⟩⟩ := receive_log s round
  · exact ⟨by rw [hlog], hhandshaked⟩
  · exact ⟨by rw [hlog]; simp [screenshots, Event.shot], hhandshaked⟩

theorem greeted_shown (session : ClientSession) (s : Connection) (round : Round) (hello : Hello) :
    (greeted session s round hello).stream = s.stream ∧
      screenshots (greeted session s round hello).log = screenshots s.log := by
  unfold greeted
  split
  · exact ⟨rfl, (Beside.emit _ rfl).shown⟩
  · exact ⟨rfl, rfl⟩

/-! ## Service -/

/-- Before the HELLO, between two screenshots, or behind the end. -/
inductive Serving (hello : List UInt8) (shots : List Shot) (s : Connection) : Prop where
  | waiting (stream : s.stream <+: (Client.helloFrame hello :: shots.map shotFrame).flatMap encodeFrame)
      (shown : screenshots s.log = [])
  | showing (rest : List Shot) (handshaked : s.handshaked.isSome)
      (stream : s.stream <+: (rest.map shotFrame).flatMap encodeFrame) (shown : screenshots s.log ++ rest = shots)
  | ended (result : s.result.isSome) (shown : screenshots s.log <+: shots)

variable {hello : List UInt8} {shots : List Shot}

theorem Serving.shown (h : Serving hello shots s) : screenshots s.log <+: shots := by
  cases h with
  | waiting hstream hshown =>
    rw [hshown]
    exact List.nil_prefix
  | showing rest hhandshaked hstream hshown => exact ⟨rest, hshown⟩
  | ended hresult hshown => exact hshown

theorem shotFrame_length (shot : Shot) : (shotFrame shot).payload.length = screenshotSeqLen + shot.2.length := by
  show (Bytes.leBytes screenshotSeqLen shot.1.toNat ++ shot.2).length = _
  rw [List.length_append, Bytes.leBytes_length]

theorem handleFrame_shot (session : ClientSession) (s : Connection) (round : Round) (shot : Shot) :
    handleFrame session s round (shotFrame shot) = s.emit (.screenshot shot.1 shot.2) := by
  unfold handleFrame shotFrame
  dsimp only
  rw [if_neg (by decide), if_neg (by decide), if_pos rfl, decode_encodeScreenshot]

theorem handleFrame_hello (session : ClientSession) (s : Connection) (round : Round) (hello : List UInt8) :
    handleFrame session s round (Client.helloFrame hello) = handleHello session s round hello :=
  if_pos rfl

theorem Serving.greet (hstream : s.stream <+: (shots.map shotFrame).flatMap encodeFrame)
    (hshown : screenshots s.log = []) (round : Round) :
    Serving hello shots (handleHello session s round hello) := by
  cases haccepted : acceptable session (Client.helloFrame hello) round.client with
  | true =>
    obtain ⟨greeting, heq⟩ := handleHello_accepted (s := s) haccepted
    replace heq : handleHello session s round hello =
        sendWelcome session (greeted session s round greeting) round := heq
    obtain ⟨hkept, hgreeted⟩ := greeted_shown session s round greeting
    have hwelcome := Beside.sendWelcome session (greeted session s round greeting) round
    rw [heq]
    refine .showing shots ?_ ?_ ?_
    · rw [hwelcome.handshaked, greeted_handshaked]
      rfl
    · rw [hwelcome.stream, hkept]
      exact hstream
    · rw [hwelcome.shown, hgreeted, hshown]
      rfl
  | false =>
    obtain ⟨hresult, -, hlog⟩ := handleHello_rejected (s := s) rfl haccepted
    have hnone : screenshots (handleHello session s round hello).log = [] := by
      rw [← hshown]
      obtain hlog | hlog := hlog
      · exact congrArg screenshots hlog
      · refine (congrArg screenshots hlog).trans ?_
        simp [screenshots, Event.shot]
    exact .ended hresult (by rw [hnone]; exact List.nil_prefix)

theorem Serving.step (hhello : hello.length < 4294967296)
    (hshots : ∀ shot ∈ shots, screenshotSeqLen + shot.2.length ≤ maxPayloadLen) (h : Serving hello shots s)
    (round : Round) : Serving hello shots (serveStep session s round) := by
  unfold serveStep
  cases hresult : s.result with
  | some result => exact h
  | none =>
    rw [if_neg (by simp)]
    have hprefix := h.shown
    obtain ⟨hlog, hkept⟩ := receive_shown s round
    have hsmall : ∀ shot ∈ shots, (shotFrame shot).payload.length < 4294967296 := by
      intro shot hmem
      have hmax : screenshotSeqLen + shot.2.length ≤ 16777216 := hshots shot hmem
      rw [shotFrame_length]
      omega
    cases hreceive : s.receive round with
    | mk received s' =>
      rw [hreceive] at hlog hkept
      rw [← hlog] at hprefix
      cases received with
      | failed error => exact .ended rfl hprefix
      | gone => exact .ended rfl hprefix
      | elapsed => exact .ended rfl (by
          rw [((Beside.send s' round (errorFrame session "handshake timeout")).finish (.ok ())).shown]
          exact hprefix)
      | frame frame =>
        have hemit := Beside.emit s' (show (Event.received frame round.client).shot = none from rfl)
        cases h with
        | ended hended => rw [hresult] at hended; cases hended
        | waiting hstream hshown =>
          have hshort : ∀ frame ∈ Client.helloFrame hello :: shots.map shotFrame,
              frame.payload.length < 4294967296 := by
            intro frame hmem
            obtain rfl | hmem := List.mem_cons.mp hmem
            · exact hhello
            · obtain ⟨shot, hshot, rfl⟩ := List.mem_map.mp hmem
              exact hsmall shot hshot
          obtain ⟨rest, hframes, hrest⟩ := receive_next hshort hstream hreceive
          obtain ⟨rfl, rfl⟩ := List.cons.inj hframes
          dsimp only
          rw [if_neg (by simp [Client.helloFrame]), handleFrame_hello]
          refine .greet ?_ ?_ round
          · exact hrest
          · rw [hemit.shown, hlog, hshown]
        | showing rest hhandshaked hstream hshown =>
          have hshort : ∀ frame ∈ rest.map shotFrame, frame.payload.length < 4294967296 := by
            intro frame hmem
            obtain ⟨shot, hshot, rfl⟩ := List.mem_map.mp hmem
            exact hsmall shot (by rw [← hshown]; exact List.mem_append_right _ hshot)
          obtain ⟨frames, hframes, hrest⟩ := receive_next hshort hstream hreceive
          cases rest with
          | nil => cases hframes
          | cons shot rest =>
            obtain ⟨rfl, rfl⟩ := List.cons.inj hframes
            have hnone : s'.handshaked.isNone = false := by
              rw [hkept]
              simpa using hhandshaked
            dsimp only
            rw [if_neg (by simp [Connection.emit, hnone]), handleFrame_shot]
            refine .showing rest ?_ hrest ?_
            · show s'.handshaked.isSome
              rw [hkept]
              exact hhandshaked
            · rw [← hshown, ← hlog]
              simp [screenshots, Connection.emit, Event.shot, List.filterMap_cons]

/-- Of the screenshots written, the pipeline gets the first few, whichever bytes arrive and whatever interrupts. -/
theorem serve_shown (hhello : hello.length < 4294967296)
    (hshots : ∀ shot ∈ shots, screenshotSeqLen + shot.2.length ≤ maxPayloadLen) {stream : List UInt8}
    (hstream : stream <+: (Client.helloFrame hello :: shots.map shotFrame).flatMap encodeFrame) (rounds : List Round) :
    screenshots (serve session stream rounds).log <+: shots := by
  have hserving : Serving hello shots (run (serveStep session) (Connection.connect stream) rounds) :=
    run_invariant (fun _ round h => h.step hhello hshots round) (.waiting hstream rfl) rounds
  unfold serve
  dsimp only
  split
  · rw [((Beside.refl _).finish _ |>.trans (.emit _ rfl)).shown]
    exact hserving.shown
  · exact hserving.shown

/-! ## A connection nothing disturbs -/

def Round.Quiet (round : Round) : Prop :=
  round.atHeader = none ∧ round.atPayload = none ∧ round.write = .written

/-- The agent takes the HELLO and has a config to push, nothing fails on its side, and it goes on for long enough. -/
structure Undisturbed (session : ClientSession) (hello : List UInt8) (count : ℕ) (rounds : List Round) : Prop where
  enough : count < rounds.length
  quiet : ∀ round ∈ rounds, round.Quiet
  accepted : ∀ round ∈ rounds, acceptable session (Client.helloFrame hello) round.client = true
  small : hello.length ≤ preHandshakeMaxPayload
  welcome : ∃ body, session.welcomeBody = .ok body ∧ body.length < 4294967296

theorem receive_quiet {frame : Frame} (hknown : frame.Known) (hcap : frame.payload.length ≤ s.payloadCap)
    {more : List Frame} (hstream : s.stream = (frame :: more).flatMap encodeFrame) {round : Round}
    (hquiet : round.Quiet) :
    s.receive round =
      (.frame frame, { s.emit (.allocated frame.payload.length) with stream := more.flatMap encodeFrame }) := by
  obtain ⟨hheader, hpayload, -⟩ := hquiet
  have hlength := toNat_payloadLen hknown
  have hrefuse : refuse s.payloadCap ⟨.ofNat frame.payload.length, frame.messageType, 0⟩ = none := by
    refine if_neg (Nat.not_lt.mpr ?_)
    rwa [hlength]
  have hread : readHeader .protocol (refuse s.payloadCap) s.stream =
      .item ⟨.ofNat frame.payload.length, frame.messageType, 0⟩ (frame.payload ++ more.flatMap encodeFrame) := by
    rw [readHeader, hstream, List.flatMap_cons, encodeFrame, List.append_assoc,
      readExact_append (FrameHeader.length_toBytes _)]
    simp only
    rw [fromBytes_encoded hknown]
    simp only
    rw [hrefuse]
  unfold Connection.receive
  rw [hheader, hpayload, hread]
  simp only [Connection.interruption, readPayload, hlength]
  rw [readExact_append rfl]

theorem shotFrame_known {shot : Shot} (h : screenshotSeqLen + shot.2.length ≤ maxPayloadLen) :
    (shotFrame shot).Known :=
  ⟨rfl, by rw [shotFrame_length]; exact h⟩

/-- Between two screenshots, with nothing missing. -/
structure Ready (rest : List Shot) (s : Connection) : Prop where
  result : s.result = none
  handshaked : s.handshaked.isSome
  stream : s.stream = (rest.map shotFrame).flatMap encodeFrame

variable (session) in
theorem Ready.step {shot : Shot} {rest : List Shot} (h : Ready (shot :: rest) s)
    (hshot : screenshotSeqLen + shot.2.length ≤ maxPayloadLen) {round : Round} (hquiet : round.Quiet) :
    Ready rest (serveStep session s round) ∧
      screenshots (serveStep session s round).log = screenshots s.log ++ [shot] := by
  have hsome : s.handshaked.isNone = false := by
    simpa using h.handshaked
  have hcap : (shotFrame shot).payload.length ≤ s.payloadCap := by
    rw [shotFrame_length, Connection.payloadCap, hsome]
    exact hshot
  have hreceive := receive_quiet (shotFrame_known hshot) hcap h.stream hquiet
  have hstep : serveStep session s round =
      (({ s.emit (.allocated (shotFrame shot).payload.length) with
        stream := (rest.map shotFrame).flatMap encodeFrame } : Connection).emit
          (.received (shotFrame shot) round.client)).emit (.screenshot shot.1 shot.2) := by
    unfold serveStep
    rw [h.result, if_neg (by simp), hreceive]
    dsimp only
    rw [if_neg (by simp [Connection.emit, hsome]), handleFrame_shot]
  rw [hstep]
  refine ⟨⟨h.result, h.handshaked, rfl⟩, ?_⟩
  simp [screenshots, Connection.emit, Event.shot, List.filterMap_cons]

variable (session) in
theorem Ready.finishes (h : Ready [] s) {round : Round} (hquiet : round.Quiet) :
    (serveStep session s round).result.isSome ∧
      screenshots (serveStep session s round).log = screenshots s.log := by
  obtain ⟨hheader, hpayload, -⟩ := hquiet
  have hreceive : s.receive round = (.gone, s) := by
    unfold Connection.receive
    rw [hheader, h.stream]
    rfl
  unfold serveStep
  rw [h.result, if_neg (by simp), hreceive]
  exact ⟨rfl, rfl⟩

theorem run_finished (h : s.result.isSome) (rounds : List Round) : run (serveStep session) s rounds = s := by
  induction rounds with
  | nil => rfl
  | cons round rounds ih =>
    have hstep : serveStep session s round = s := if_pos h
    rw [run_cons, hstep]
    exact ih

theorem Ready.run {rest : List Shot} (h : Ready rest s)
    (hrest : ∀ shot ∈ rest, screenshotSeqLen + shot.2.length ≤ maxPayloadLen) {rounds : List Round}
    (hquiet : ∀ round ∈ rounds, round.Quiet) (henough : rest.length ≤ rounds.length) :
    screenshots (Runs.run (serveStep session) s rounds).log = screenshots s.log ++ rest := by
  induction rounds generalizing rest s with
  | nil =>
    obtain rfl := List.length_eq_zero_iff.mp (Nat.le_zero.mp henough)
    exact (List.append_nil _).symm
  | cons round rounds ih =>
    obtain ⟨hround, hrounds⟩ := List.forall_mem_cons.mp hquiet
    rw [run_cons]
    cases rest with
    | nil =>
      obtain ⟨hresult, hshown⟩ := h.finishes session hround
      rw [run_finished hresult, hshown, List.append_nil]
    | cons shot rest =>
      obtain ⟨hshot, hrest⟩ := List.forall_mem_cons.mp hrest
      obtain ⟨hready, hshown⟩ := h.step session hshot hround
      rw [ih hready hrest hrounds (Nat.le_of_succ_le_succ henough), hshown, List.append_assoc]
      rfl

theorem greet_ready {body : List UInt8} (hbody : session.welcomeBody = .ok body) (hsmall : body.length < 4294967296)
    (hresult : s.result = none) (hstream : s.stream = (shots.map shotFrame).flatMap encodeFrame) {round : Round}
    (hquiet : round.Quiet) (haccepted : acceptable session (Client.helloFrame hello) round.client = true) :
    Ready shots (handleHello session s round hello) ∧
      screenshots (handleHello session s round hello).log = screenshots s.log := by
  obtain ⟨greeting, heq⟩ := handleHello_accepted (s := s) haccepted
  replace heq : handleHello session s round hello =
      sendWelcome session (greeted session s round greeting) round := heq
  obtain ⟨hkept, hgreeted⟩ := greeted_shown session s round greeting
  have hwelcome := Beside.sendWelcome session (greeted session s round greeting) round
  have hnone : (sendWelcome session (greeted session s round greeting) round).result = s.result := by
    have hsend : sendFrame ⟨MessageType.welcome, body⟩ = .ok _ := if_pos hsmall
    have hgreet : (greeted session s round greeting).result = s.result := by
      unfold greeted
      split <;> rfl
    rw [sendWelcome, hbody]
    simp only [Connection.answer, Connection.send, hsend, hquiet.2.2]
    exact hgreet
  rw [heq]
  refine ⟨⟨hnone.trans hresult, ?_, ?_⟩, ?_⟩
  · rw [hwelcome.handshaked, greeted_handshaked]
    rfl
  · rw [hwelcome.stream, hkept, hstream]
  · rw [hwelcome.shown, hgreeted]

theorem serveStep_hello (hresult : s.result = none) (hknown : (Client.helloFrame hello).Known)
    (hcap : hello.length ≤ s.payloadCap) {more : List Frame}
    (hstream : s.stream = (Client.helloFrame hello :: more).flatMap encodeFrame) {round : Round}
    (hquiet : round.Quiet) :
    ∃ s' : Connection, serveStep session s round = handleHello session s' round hello ∧ s'.result = none ∧
      s'.stream = more.flatMap encodeFrame ∧ screenshots s'.log = screenshots s.log := by
  unfold serveStep
  rw [hresult, if_neg (by simp), receive_quiet hknown hcap hstream hquiet]
  dsimp only
  rw [if_neg (by simp [Client.helloFrame]), handleFrame_hello]
  refine ⟨_, rfl, hresult, rfl, ?_⟩
  simp [screenshots, Connection.emit, Event.shot, List.filterMap_cons]

theorem serve_all (hshots : ∀ shot ∈ shots, screenshotSeqLen + shot.2.length ≤ maxPayloadLen) {rounds : List Round}
    (h : Undisturbed session hello shots.length rounds) :
    screenshots (serve session ((Client.helloFrame hello :: shots.map shotFrame).flatMap encodeFrame) rounds).log =
      shots := by
  have hrun : screenshots (run (serveStep session)
      (Connection.connect ((Client.helloFrame hello :: shots.map shotFrame).flatMap encodeFrame)) rounds).log =
      shots := by
    obtain ⟨henough, hquiet, haccepted, hsmall, body, hbody, hbodySmall⟩ := h
    cases rounds with
    | nil => cases henough
    | cons round rounds =>
      obtain ⟨hround, hrounds⟩ := List.forall_mem_cons.mp hquiet
      have hknown : (Client.helloFrame hello).Known := by
        refine ⟨rfl, hsmall.trans ?_⟩
        decide
      obtain ⟨s', hstep, hresult, hstream, hnone⟩ := @serveStep_hello session
        (Connection.connect ((Client.helloFrame hello :: shots.map shotFrame).flatMap encodeFrame)) hello rfl hknown
        hsmall
        (shots.map shotFrame) rfl round hround
      rw [run_cons, hstep]
      obtain ⟨hready, hshown⟩ :=
        greet_ready hbody hbodySmall hresult hstream hround (haccepted round List.mem_cons_self)
      rw [hready.run hshots hrounds (Nat.le_of_lt_succ henough), hshown, hnone]
      rfl
  unfold serve
  dsimp only
  split
  · rw [((Beside.refl _).finish _ |>.trans (.emit _ rfl)).shown]
    exact hrun
  · exact hrun

/-! ## Both ends -/

/-- What the pipeline may get from a connection. -/
def Delivers (session : ClientSession) (link : Client.Link) (shown : List Shot) : Prop :=
  ∃ cut rounds, screenshots (serve session (link.written.take cut) rounds).log = shown

theorem delivers_prefix {link : Client.Link} {torn : Bool} (h : link.Sound hello torn)
    (hshots : ∀ shot ∈ link.taken, screenshotSeqLen + shot.2.length ≤ maxPayloadLen) {shown : List Shot}
    (hdelivers : Delivers session link shown) : shown <+: link.taken := by
  obtain ⟨cut, rounds, rfl⟩ := hdelivers
  exact serve_shown h.sendable hshots ((List.take_prefix cut _).trans h.written) rounds

theorem flatten_sublist {links : List Client.Link} {arrived : List (List Shot)}
    (h : List.Forall₂ (Delivers session) links arrived)
    (hlinks : ∀ link ∈ links, ∀ shown, Delivers session link shown → shown <+: link.taken) :
    arrived.flatten.Sublist (links.flatMap (·.taken)) := by
  induction h with
  | nil => exact List.Sublist.slnil
  | cons hdelivers hrest ih =>
    obtain ⟨hlink, hlinks⟩ := List.forall_mem_cons.mp hlinks
    rw [List.flatten_cons, List.flatMap_cons]
    exact (hlink _ hdelivers).sublist.append (ih hlinks)

end

/-- Every screenshot the sink took waits in the queue or was taken for one connection, in order. Of those taken for a
connection the agent's pipeline gets the first few, byte for byte, whatever part of the bytes arrives, whatever
interrupts the agent and however often the pipe is lost: none twice and none out of order; and all of them, where the
connection is not disturbed. The other way, the kernel of the user actor gets what the frames of the agent push,
of each connection the first few. -/
theorem screenshots_transported {Config : Type} (session : ClientSession) (options : Client.IpcClientOptions Config)
    (ops : List Client.ClientOp) :
    let s := run (Client.clientStep options) .start ops
    s.accepted = s.links.flatMap (·.1.taken) ++ s.queue ∧
    (∀ arrived, List.Forall₂ (Delivers session) (s.links.map (·.1)) arrived → arrived.flatten.Sublist s.accepted) ∧
    (∀ link torn, (link, torn) ∈ s.links →
      (∀ shown, Delivers session link shown → shown <+: link.taken) ∧
      (torn = false → ∀ rounds, Undisturbed session options.hello link.taken.length rounds →
        screenshots (serve session link.written rounds).log = link.taken) ∧
      ∀ frames cut, (∀ frame ∈ frames, frame.Known) → link.heard = (frames.flatMap encodeFrame).take cut →
        link.handed <+: frames) ∧
    s.welcomes = s.links.flatMap fun entry => entry.1.handed.filterMap options.pushed := by
  intro s
  have h : s.Sound options := run_invariant (fun _ op h => h.step op) (Client.sound_start options) ops
  have hshots : ∀ entry ∈ s.links, ∀ shot ∈ entry.1.taken, screenshotSeqLen + shot.2.length ≤ maxPayloadLen := by
    intro entry hentry shot hshot
    refine h.short shot ?_
    rw [h.account]
    exact List.mem_append_left _ (List.mem_flatMap.mpr ⟨entry, hentry, hshot⟩)
  refine ⟨h.account, fun arrived harrived => ?_, fun link torn hlink => ?_, h.welcomes⟩
  · have hsublist := flatten_sublist harrived fun link hlink shown hdelivers => by
      obtain ⟨entry, hentry, rfl⟩ := List.mem_map.mp hlink
      exact delivers_prefix (h.links entry hentry) (hshots entry hentry) hdelivers
    rw [List.flatMap_map] at hsublist
    rw [h.account]
    exact hsublist.trans (List.sublist_append_left _ _)
  · have hsound := h.links _ hlink
    refine ⟨fun shown hdelivers => delivers_prefix hsound (hshots _ hlink) hdelivers, ?_, ?_⟩
    · intro htorn rounds hrounds
      rw [hsound.whole htorn]
      exact serve_all (hshots _ hlink) hrounds
    · intro frames cut hknown hheard
      obtain ⟨rest, -, hframes, -⟩ := hsound.hears frames cut hknown hheard
      exact ⟨_, hframes.symm⟩

end SecOutfall.Ipc.Server
