import SecOutfall.Ipc.Server

/-! The lifecycle events of one connection: `user_actor.started` comes from the frame loop, once for each HELLO it
accepts, and `user_actor.stopped` from behind it. -/
namespace SecOutfall.Ipc.Server
open Framing Runs
set_option autoImplicit false

def Event.isLifecycle : Event → Bool
  | .started _ _ => true
  | .stopped _ => true
  | _ => false

def lifecycle (log : List Event) : List Event := log.filter Event.isLifecycle

section
variable (session : ClientSession)

def Event.isAccepted : Event → Bool
  | .received frame client => acceptable session frame client
  | _ => false

/-- How many HELLOs were accepted. -/
def acceptedHellos (log : List Event) : ℕ := log.countP (Event.isAccepted session)

/-- One of each, started first, if a HELLO was ever accepted, and none otherwise. -/
def Paired (log : List Event) : Prop :=
  if acceptedHellos session log = 0 then lifecycle log = []
  else ∃ moduleVersion pid reason, lifecycle log = [.started moduleVersion pid, .stopped reason]

/-- The next round accepts a HELLO. -/
def accepts (s : Connection) (round : Round) : Bool :=
  s.result.isNone &&
    match (s.receive round).1 with
    | .frame frame => acceptable session frame round.client
    | _ => false

/-- The lifecycle events tell the accepted HELLOs, and the handshake is whether there is one. -/
structure Tally (s : Connection) : Prop where
  handshaked : s.handshaked = none ↔ acceptedHellos session s.log = 0
  started : ∀ event ∈ lifecycle s.log, ∃ moduleVersion pid, event = .started moduleVersion pid
  length : (lifecycle s.log).length = if session.wired then acceptedHellos session s.log else 0

/-- What has been accepted can still be paired. -/
def Pairable (s : Connection) : Prop :=
  acceptedHellos session s.log = 0 ∨ acceptedHellos session s.log = 1 ∧ session.wired = true

/-- No handshake and no lifecycle event lies between the two. -/
structure Same (s s' : Connection) : Prop where
  handshaked : s'.handshaked = s.handshaked
  accepted : acceptedHellos session s'.log = acceptedHellos session s.log
  lifecycle : lifecycle s'.log = lifecycle s.log

end

section
variable {session : ClientSession} {s s' s'' : Connection}

/-! ## Quiet steps -/

theorem Same.refl (session : ClientSession) (s : Connection) : Same session s s := ⟨rfl, rfl, rfl⟩

theorem Same.trans (h : Same session s s') (h' : Same session s' s'') : Same session s s'' :=
  ⟨h'.handshaked.trans h.handshaked, h'.accepted.trans h.accepted, h'.lifecycle.trans h.lifecycle⟩

theorem Same.emit (s : Connection) {event : Event} (haccepted : event.isAccepted session = false)
    (hlifecycle : event.isLifecycle = false) : Same session s (s.emit event) := by
  refine ⟨rfl, ?_, ?_⟩
  · simp [acceptedHellos, Connection.emit, haccepted]
  · simp [Server.lifecycle, Connection.emit, hlifecycle]

theorem Same.finish (session : ClientSession) (s : Connection) (result : Except IpcServerError Unit) :
    Same session s (s.finish result) := ⟨rfl, rfl, rfl⟩

theorem Same.send (session : ClientSession) (s : Connection) (round : Round) (frame : Frame) :
    Same session s (s.send round frame).2 := by
  unfold Connection.send
  cases sendFrame frame with
  | error error => exact .refl session s
  | ok bytes => cases round.write <;> exact .emit s rfl rfl

theorem Same.answer (session : ClientSession) (s : Connection) (round : Round) (frame : Frame) :
    Same session s (s.answer round frame) := by
  have hsent := Same.send session s round frame
  unfold Connection.answer
  cases hsend : s.send round frame with
  | mk error s' =>
    rw [hsend] at hsent
    cases error with
    | none => exact hsent
    | some error => exact hsent.trans (.finish session s' _)

theorem Same.sendWelcome (session : ClientSession) (s : Connection) (round : Round) :
    Same session s (sendWelcome session s round) := by
  unfold Server.sendWelcome
  cases session.welcomeBody with
  | error text => exact .finish session s _
  | ok body => exact .answer session s round _

theorem Same.receive (session : ClientSession) (s : Connection) (round : Round) :
    Same session s (s.receive round).2 := by
  obtain ⟨hhandshaked, -, hlog | ⟨size, -, hlog⟩⟩ := receive_log s round
  · exact ⟨hhandshaked, by rw [hlog], by rw [hlog]⟩
  · have hemit : Same session s (s.emit (.allocated size)) := .emit s rfl rfl
    exact ⟨hhandshaked, by rw [hlog]; exact hemit.accepted, by rw [hlog]; exact hemit.lifecycle⟩

theorem Same.handleHello {frame : Frame} {round : Round} (hhello : frame.messageType = MessageType.hello)
    (hrejected : acceptable session frame round.client = false) :
    Same session s (handleHello session s round frame.payload) := by
  obtain ⟨-, hhandshaked, hlog | hlog⟩ := handleHello_rejected (s := s) hhello hrejected
  · exact ⟨hhandshaked, by rw [hlog], by rw [hlog]⟩
  · have hemit : Same session s (s.emit (.sent (errorFrame session "handshake rejected"))) := .emit s rfl rfl
    exact ⟨hhandshaked, by rw [hlog]; exact hemit.accepted, by rw [hlog]; exact hemit.lifecycle⟩

theorem Same.handleFrame {frame : Frame} {round : Round} (hrejected : acceptable session frame round.client = false) :
    Same session s (handleFrame session s round frame) := by
  unfold Server.handleFrame
  split
  case isTrue hhello => exact .handleHello hhello hrejected
  case isFalse =>
    split
    case isTrue => exact .sendWelcome session s round
    case isFalse =>
      split
      case isTrue =>
        cases decodeScreenshot frame.payload with
        | error error => exact .finish session s _
        | ok screenshot => exact .emit s rfl rfl
      case isFalse =>
        split
        · exact .refl session s
        · exact .finish session s _

/-- A round that accepts no HELLO. -/
theorem Same.serveStep {round : Round} (h : accepts session s round = false) :
    Same session s (serveStep session s round) := by
  unfold accepts at h
  unfold Server.serveStep
  have hread := Same.receive session s round
  cases hresult : s.result with
  | some result => exact .refl session s
  | none =>
    simp only [hresult, Option.isNone_none, Bool.true_and] at h
    rw [if_neg (by simp)]
    cases hreceive : s.receive round with
    | mk received s' =>
      rw [hreceive] at h hread
      cases received with
      | failed error => exact hread.trans (.finish session s' _)
      | elapsed => exact (hread.trans (.send session s' round _)).trans (.finish session _ _)
      | gone => exact hread.trans (.finish session s' _)
      | frame frame =>
        have hemit : Same session s (s'.emit (.received frame round.client)) := hread.trans (.emit s' h rfl)
        dsimp only
        split
        · have hsent := hemit.trans (.send session _ round (errorFrame session "handshake required"))
          split
          · exact hsent.trans (.finish session _ _)
          · exact hsent
        · exact hemit.trans (.handleFrame h)

/-! ## Accepted HELLOs -/

theorem acceptable_hello {frame : Frame} {client : PipeClient} (h : acceptable session frame client = true) :
    frame.messageType = MessageType.hello := by
  unfold acceptable at h
  rw [Bool.and_eq_true, beq_iff_eq] at h
  exact h.1

theorem greeted_accepted (session : ClientSession) (s : Connection) (round : Round) (hello : Hello) :
    acceptedHellos session (greeted session s round hello).log = acceptedHellos session s.log := by
  unfold greeted
  cases session.wired with
  | false => rfl
  | true => simp [Connection.emit, acceptedHellos, Event.isAccepted]

theorem greeted_lifecycle (session : ClientSession) (s : Connection) (round : Round) (hello : Hello) :
    ∃ pid, lifecycle (greeted session s round hello).log =
      lifecycle s.log ++ if session.wired then [.started hello.moduleVersion pid] else [] := by
  refine ⟨if round.client.pid != 0 then some round.client.pid else none, ?_⟩
  unfold greeted
  cases session.wired with
  | false => simp
  | true => simp [Connection.emit, lifecycle, Event.isLifecycle]

/-- What an accepted HELLO adds. -/
theorem serveStep_accepts {round : Round} (h : accepts session s round = true) :
    (serveStep session s round).handshaked ≠ none ∧
      acceptedHellos session (serveStep session s round).log = acceptedHellos session s.log + 1 ∧
      ∃ moduleVersion pid, lifecycle (serveStep session s round).log =
        lifecycle s.log ++ if session.wired then [.started moduleVersion pid] else [] := by
  unfold accepts at h
  rw [Bool.and_eq_true, Option.isNone_iff_eq_none] at h
  obtain ⟨hresult, haccepted⟩ := h
  have hread := Same.receive session s round
  unfold serveStep
  rw [hresult, if_neg (by simp)]
  cases hreceive : s.receive round with
  | mk received s' =>
    rw [hreceive] at haccepted hread
    cases received with
    | failed error => cases haccepted
    | elapsed => cases haccepted
    | gone => cases haccepted
    | frame frame =>
      replace haccepted : acceptable session frame round.client = true := haccepted
      have hhello := acceptable_hello haccepted
      obtain ⟨hello, heq⟩ := handleHello_accepted (s := s'.emit (.received frame round.client)) haccepted
      have hwelcome := Same.sendWelcome session
        (greeted session (s'.emit (.received frame round.client)) round hello) round
      rw [← heq] at hwelcome
      have hcount : acceptedHellos session (s'.emit (.received frame round.client)).log =
          acceptedHellos session s.log + 1 := by
        rw [← hread.accepted]
        simp [Connection.emit, acceptedHellos, Event.isAccepted, haccepted]
      have hlifecycle : lifecycle (s'.emit (.received frame round.client)).log = lifecycle s.log := by
        rw [← hread.lifecycle]
        simp [Connection.emit, lifecycle, Event.isLifecycle]
      obtain ⟨pid, hstarted⟩ := greeted_lifecycle session (s'.emit (.received frame round.client)) round hello
      dsimp only
      rw [if_neg (by simp [hhello]), handleFrame, if_pos hhello, hwelcome.handshaked, hwelcome.accepted,
        hwelcome.lifecycle, greeted_handshaked, greeted_accepted, hcount, hstarted, hlifecycle]
      exact ⟨Option.some_ne_none _, rfl, hello.moduleVersion, pid, rfl⟩

/-! ## Runs -/

theorem Tally.congr (h : Tally session s) (hsame : Same session s s') : Tally session s' := by
  refine ⟨?_, ?_, ?_⟩
  · rw [hsame.handshaked, hsame.accepted]
    exact h.handshaked
  · rw [hsame.lifecycle]
    exact h.started
  · rw [hsame.lifecycle, hsame.accepted]
    exact h.length

theorem Tally.serveStep (h : Tally session s) (round : Round) : Tally session (serveStep session s round) := by
  cases haccepts : accepts session s round with
  | false => exact h.congr (.serveStep haccepts)
  | true =>
    obtain ⟨hhandshaked, haccepted, moduleVersion, pid, hlifecycle⟩ := serveStep_accepts haccepts
    refine ⟨?_, fun event hmem => ?_, ?_⟩
    · exact iff_of_false hhandshaked (by omega)
    · rw [hlifecycle, List.mem_append] at hmem
      obtain hmem | hmem := hmem
      · exact h.started event hmem
      · split at hmem
        · exact ⟨moduleVersion, pid, List.mem_singleton.mp hmem⟩
        · cases hmem
    · rw [hlifecycle, List.length_append, h.length, haccepted]
      cases session.wired <;> rfl

/-- A step keeps the pairing exactly if it accepts no second HELLO, and none without a reporter. -/
theorem Tally.pairable_iff (h : Tally session s) (round : Round) :
    Pairable session (Server.serveStep session s round) ↔ Pairable session s ∧
      (accepts session s round = true → session.wired = true ∧ s.handshaked = none) := by
  unfold Pairable
  cases haccepts : accepts session s round with
  | false => simp [(Same.serveStep haccepts).accepted]
  | true =>
    rw [(serveStep_accepts haccepts).2.1, h.handshaked]
    constructor
    · rintro (hzero | ⟨hone, hwired⟩)
      · omega
      · exact ⟨.inl (by omega), fun _ => ⟨hwired, by omega⟩⟩
    · rintro ⟨-, hpaired⟩
      obtain ⟨hwired, hzero⟩ := hpaired rfl
      exact .inr ⟨by omega, hwired⟩

theorem tally_connect (session : ClientSession) (stream : List UInt8) : Tally session (Connection.connect stream) := by
  refine ⟨iff_of_true rfl rfl, fun event hmem => ?_, ?_⟩
  · cases hmem
  · cases h : session.wired <;> rfl

/-- What the end of the connection adds to a run of the loop. -/
theorem Tally.paired_iff (h : Tally session s) (result : Except IpcServerError Unit) (reason : Option IpcServerError) :
    Paired session (if s.handshaked.isSome && session.wired then (s.finish result).emit (.stopped reason)
      else s.finish result).log ↔ Pairable session s := by
  unfold Paired Pairable
  cases hhandshaked : s.handshaked with
  | none =>
    have hzero := h.handshaked.mp hhandshaked
    have hnone : lifecycle s.log = [] := List.length_eq_zero_iff.mp (by rw [h.length, hzero]; split <;> rfl)
    simp [Connection.finish, hzero, hnone]
  | some moduleVersion =>
    have hpos : acceptedHellos session s.log ≠ 0 := fun hzero => by
      rw [h.handshaked.mpr hzero] at hhandshaked
      cases hhandshaked
    cases hwired : session.wired with
    | false =>
      have hnone : lifecycle s.log = [] := List.length_eq_zero_iff.mp (by rw [h.length, hwired]; rfl)
      simp [Connection.finish, hpos, hnone]
    | true =>
      have hlength : (lifecycle s.log).length = acceptedHellos session s.log := by rw [h.length, hwired, if_pos rfl]
      have hcount : acceptedHellos session (s.log ++ [.stopped reason]) = acceptedHellos session s.log := by
        simp [acceptedHellos, Event.isAccepted]
      have hlifecycle : lifecycle (s.log ++ [.stopped reason]) = lifecycle s.log ++ [.stopped reason] := by
        simp [lifecycle, Event.isLifecycle]
      simp only [Option.isSome_some, Bool.and_self, if_true, Connection.finish, Connection.emit, hcount, hlifecycle,
        hpos, if_false, false_or, and_true]
      constructor
      · rintro ⟨moduleVersion, pid, reason', heq⟩
        have htotal := congrArg List.length heq
        simp only [List.length_append, hlength, List.length_cons, List.length_nil] at htotal
        omega
      · intro hone
        obtain ⟨event, hevent⟩ := List.length_eq_one_iff.mp (hlength.trans hone)
        obtain ⟨moduleVersion, pid, rfl⟩ := h.started event (by rw [hevent]; exact List.mem_singleton_self _)
        exact ⟨moduleVersion, pid, reason, by rw [hevent]; rfl⟩

theorem serve_paired_iff (session : ClientSession) (stream : List UInt8) (rounds : List Round) :
    Paired session (serve session stream rounds).log ↔
      Along (serveStep session)
        (fun s round => accepts session s round = true → session.wired = true ∧ s.handshaked = none)
        (Connection.connect stream) rounds := by
  have hstart := tally_connect session stream
  have hstep (s : Connection) (round : Round) (h : Tally session s) : Tally session (serveStep session s round) :=
    h.serveStep round
  have hgood := run_good_iff hstep (fun _ round h => h.pairable_iff round) hstart rounds
  have hfresh : Pairable session (Connection.connect stream) := .inl rfl
  exact ((run_invariant hstep hstart rounds).paired_iff _ _).trans (hgood.trans (and_iff_right hfresh))

def helloBody : List UInt8 :=
  "\x7b\"protocol\":1,\"nonce\":\"n\",\"module_version\":\"v\"\x7d".toUTF8.data.toList

def wiredSession : ClientSession where
  nonce := "n"
  wired := true
  welcomeBody := .ok []
  errorFrameBody := fun _ => []
  parseHello := fun payload => if payload = helloBody then .ok ⟨1, "n", "v"⟩ else .error "no HELLO"

def plainRound : Round := ⟨none, none, ⟨7, 0, false⟩, .written⟩

def helloFrame : List UInt8 := [47, 0, 0, 0, 1, 0, 0, 0] ++ helloBody

/-- Two accepted HELLOs before the client closes the pipe. -/
theorem hello_twice_unpaired : ¬ Paired wiredSession
    (serve wiredSession (helloFrame ++ helloFrame) [plainRound, plainRound, plainRound]).log := by
  have hcount : acceptedHellos wiredSession
      (serve wiredSession (helloFrame ++ helloFrame) [plainRound, plainRound, plainRound]).log = 2 := by decide +kernel
  have hlifecycle : lifecycle (serve wiredSession (helloFrame ++ helloFrame) [plainRound, plainRound, plainRound]).log =
      [.started "v" (some 7), .started "v" (some 7), .stopped none] := by decide +kernel
  rw [Paired, hcount, hlifecycle, if_neg (by decide)]
  rintro ⟨moduleVersion, pid, reason, heq⟩
  cases heq

end
end SecOutfall.Ipc.Server
