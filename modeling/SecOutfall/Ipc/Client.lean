import SecOutfall.Foundations.Runs
import SecOutfall.Ipc.Frames

/-! The user actor's end of the pipe: `IpcClientAdapter` of `ipc_client.rs`, and the sink in front of it.

Screenshots come through a bounded queue that outlives the connections. On each connection a task of its own
reads the frames. What the peer ever writes on it, and how each write goes, is given. -/
namespace SecOutfall.Ipc.Client
open Bytes Framing Runs
set_option autoImplicit false

/-! ## Model -/

abbrev Shot := UInt32 × List UInt8

def sinkChannelCapacity : ℕ := 4

def inboundChannelCapacity : ℕ := 8

/-- `hello` is the serialised HELLO; serde reads the config out of a WELCOME. -/
structure IpcClientOptions (Config : Type) where
  hello : List UInt8
  parseWelcome : List UInt8 → Option Config

inductive Write where
  | whole
  -- after so many bytes
  | failed (bytes : ℕ) (text : String)
  deriving DecidableEq, Repr

def Write.bytes (data : List UInt8) : Write → List UInt8
  | .whole => data
  | .failed bytes _ => data.take bytes

def Write.torn : Write → Bool
  | .whole => false
  | .failed _ _ => true

/-- What the reader hands to the dispatch loop. -/
inductive Inbound where
  | frame (frame : Frame)
  | eof
  | error (error : IpcClientError)
  deriving DecidableEq, Repr

inductive ScreenshotSinkError where
  | oversize
  | full
  deriving DecidableEq, Repr

inductive RunError where
  | handshakeRejected
  | connect (text : String)
  | failed (error : IpcClientError)
  deriving DecidableEq, Repr

/-- A connection: what the peer writes on it and what of that is unread, the frames the dispatch loop had, what
was written, and the screenshots that were to be. -/
structure Link where
  heard : List UInt8
  unread : List UInt8
  reading : Bool
  inbound : List Inbound
  handed : List Frame
  handshaked : Bool
  written : List UInt8
  taken : List Shot
  deriving DecidableEq, Repr

inductive Phase where
  | connecting
  | exchanging (link : Link)
  -- the delay behind a lost connection
  | waiting
  | returned (result : Except RunError Unit)

/-- `accepted` is what the sink took, `closed` says of each connection whether its last write failed, `welcomes` is
what the kernel got. -/
structure IpcClient (Config : Type) where
  queue : List Shot
  accepted : List Shot
  cancelled : Bool
  phase : Phase
  closed : List (Link × Bool)
  welcomes : List Config

inductive ClientOp where
  | send (shot : Shot)
  | cancel
  -- the pipe, with what the peer writes, and the HELLO
  | connect (opened : Except String (List UInt8)) (write : Write)
  | read
  | turn (write : Write)
  | wake

def helloFrame (hello : List UInt8) : Frame := ⟨MessageType.hello, hello⟩

def shotFrame (shot : Shot) : Frame := ⟨MessageType.screenshot, encodeScreenshot shot.1 shot.2⟩

/-- The reader task, while the channel has room. The dispatch loop holds a sender of its own, so the channel never
closes under it. -/
def Link.read (link : Link) : Link :=
  if !link.reading || inboundChannelCapacity ≤ link.inbound.length then link
  else
    match readFrame link.unread with
    | .item frame rest => { link with unread := rest, inbound := link.inbound ++ [.frame frame] }
    | .stop .ended => { link with inbound := link.inbound ++ [.eof] }
    | .stop (.failed error) => { link with reading := false, inbound := link.inbound ++ [.error error] }

namespace IpcClient
variable {Config : Type}

def start : IpcClient Config := ⟨[], [], false, .connecting, [], []⟩

/-- `IpcScreenshotSink::send`. -/
def send (s : IpcClient Config) (shot : Shot) : Option ScreenshotSinkError × IpcClient Config :=
  if maxPayloadLen < screenshotSeqLen + shot.2.length then (some .oversize, s)
  else if sinkChannelCapacity ≤ s.queue.length then (some .full, s)
  else (none, { s with queue := s.queue ++ [shot], accepted := s.accepted ++ [shot] })

def returns (s : IpcClient Config) (result : Except RunError Unit) : IpcClient Config :=
  { s with phase := .returned result }

def exchange (s : IpcClient Config) (link : Link) : IpcClient Config := { s with phase := .exchanging link }

/-- Both halves of the connection go. -/
def leave (s : IpcClient Config) (link : Link) (torn : Bool) (phase : Phase) : IpcClient Config :=
  { s with phase, closed := s.closed ++ [(link, torn)] }

/-- `connect` and `send_hello`. -/
def connect (options : IpcClientOptions Config) (s : IpcClient Config) (opened : Except String (List UInt8))
    (write : Write) : IpcClient Config :=
  match s.phase with
  | .connecting =>
    if s.cancelled then s.returns (.error (.connect "cancelled"))
    else
      match opened with
      | .error text => s.returns (.error (.connect text))
      | .ok heard =>
        match sendFrame (helloFrame options.hello) with
        | .error error => s.returns (.error (.failed error))
        | .ok data =>
          let link : Link := ⟨heard, heard, true, [], [], false, write.bytes data, []⟩
          match write with
          | .whole => s.exchange link
          | .failed _ text => s.leave link true (.returned (.error (.failed (.io text))))
  | _ => s

/-- What the dispatch loop does with an item of the channel. -/
def dispatch (options : IpcClientOptions Config) (s : IpcClient Config) (link : Link) : Inbound → IpcClient Config
  | .frame frame =>
    let link := { link with handed := link.handed ++ [frame] }
    if frame.messageType = MessageType.welcome then
      match options.parseWelcome frame.payload with
      | some config =>
        { s with phase := .exchanging { link with handshaked := true }, welcomes := s.welcomes ++ [config] }
      | none => s.exchange link
    else if frame.messageType = MessageType.error then
      if link.handshaked then s.exchange link else s.leave link false (.returned (.error .handshakeRejected))
    else s.leave link false .waiting
  | .eof => s.leave link false .waiting
  | .error _ => s.leave link false .waiting

/-- A screenshot off the queue. -/
def forward (s : IpcClient Config) (link : Link) (shot : Shot) (write : Write) : IpcClient Config :=
  match sendFrame (shotFrame shot) with
  | .error _ => s.leave { link with taken := link.taken ++ [shot] } true .waiting
  | .ok data =>
    let link := { link with
      written := link.written ++ write.bytes data
      taken := link.taken ++ [shot] }
    match write with
    | .whole => s.exchange link
    | .failed _ _ => s.leave link true .waiting

/-- A turn of the dispatch loop: it is biased, to the cancellation and then to what was read. -/
def turn (options : IpcClientOptions Config) (s : IpcClient Config) (write : Write) : IpcClient Config :=
  match s.phase with
  | .exchanging link =>
    if s.cancelled then s.leave link false (.returned (.ok ()))
    else
      match link.inbound with
      | item :: inbound => s.dispatch options { link with inbound } item
      | [] =>
        match s.queue with
        | shot :: queue => { s with queue }.forward link shot write
        | [] => s
  | _ => s

end IpcClient

section
variable {Config : Type}

def clientStep (options : IpcClientOptions Config) (s : IpcClient Config) : ClientOp → IpcClient Config
  | .send shot => (s.send shot).2
  | .cancel => { s with cancelled := true }
  | .connect opened write => s.connect options opened write
  | .read =>
    match s.phase with
    | .exchanging link => s.exchange (if s.cancelled then { link with reading := false } else link.read)
    | _ => s
  | .turn write => s.turn options write
  | .wake =>
    match s.phase with
    | .waiting => if s.cancelled then s.returns (.ok ()) else { s with phase := .connecting }
    | _ => s

end

section
variable {Config : Type}

/-! ## One step -/

def Inbound.received : Inbound → Option Frame
  | .frame whole => some whole
  | _ => none

/-- The config a frame pushes. -/
def IpcClientOptions.pushed (options : IpcClientOptions Config) (frame : Frame) : Option Config :=
  if frame.messageType = MessageType.welcome then options.parseWelcome frame.payload else none

/-- The connections, with the one at hand. -/
def IpcClient.links (s : IpcClient Config) : List (Link × Bool) :=
  match s.phase with
  | .exchanging link => s.closed ++ [(link, false)]
  | _ => s.closed

def Link.fresh (hello heard : List UInt8) (write : Write) : Link :=
  ⟨heard, heard, true, [], [], false, write.bytes (encodeFrame (helloFrame hello)), []⟩

/-- What a step does to the connection at hand, with the screenshots it takes, the configs it hands on and
whether a write fails. -/
inductive LinkStep (options : IpcClientOptions Config) (link : Link) :
    List Shot → List Config → Link → Bool → Prop where
  | reads : LinkStep options link [] [] link.read false
  | stops : LinkStep options link [] [] { link with reading := false } false
  | still : LinkStep options link [] [] link false
  | handles (item : Inbound) (inbound : List Inbound) (handshaked : Bool) (next : link.inbound = item :: inbound) :
    LinkStep options link [] (item.received.bind options.pushed).toList
      { link with inbound, handed := link.handed ++ item.received.toList, handshaked } false
  | forwards (shot : Shot) (write : Write) :
    LinkStep options link [shot] []
      { link with
        written := link.written ++ write.bytes (encodeFrame (shotFrame shot))
        taken := link.taken ++ [shot] } write.torn

inductive Effect (options : IpcClientOptions Config) (s s' : IpcClient Config) : Prop where
  | quiet (links : s'.links = s.links) (queue : s'.queue = s.queue) (accepted : s'.accepted = s.accepted)
      (welcomes : s'.welcomes = s.welcomes)
  | accepts (shot : Shot) (short : screenshotSeqLen + shot.2.length ≤ maxPayloadLen) (links : s'.links = s.links)
      (queue : s'.queue = s.queue ++ [shot]) (accepted : s'.accepted = s.accepted ++ [shot])
      (welcomes : s'.welcomes = s.welcomes)
  | opens (heard : List UInt8) (write : Write) (sendable : options.hello.length < 4294967296)
      (links : s'.links = s.links ++ [(.fresh options.hello heard write, write.torn)]) (queue : s'.queue = s.queue)
      (accepted : s'.accepted = s.accepted) (welcomes : s'.welcomes = s.welcomes)
  | moves (before : List (Link × Bool)) (link link' : Link) (torn : Bool) (shots : List Shot) (configs : List Config)
      (step : LinkStep options link shots configs link' torn) (links : s.links = before ++ [(link, false)])
      (links' : s'.links = before ++ [(link', torn)]) (queue : s.queue = shots ++ s'.queue)
      (accepted : s'.accepted = s.accepted) (welcomes : s'.welcomes = s.welcomes ++ configs)

variable {options : IpcClientOptions Config} {s s' : IpcClient Config} {link : Link}

theorem sendFrame_short {frame : Frame} (h : frame.payload.length < 4294967296) :
    sendFrame frame = .ok (encodeFrame frame) :=
  if_pos h

theorem links_of_exchanging (h : s.phase = .exchanging link) : s.links = s.closed ++ [(link, false)] := by
  rw [IpcClient.links, h]

theorem links_of_not_exchanging (h : ∀ link, s.phase ≠ .exchanging link) : s.links = s.closed := by
  unfold IpcClient.links
  split
  · exact absurd ‹_› (h _)
  · rfl

theorem links_leave (s : IpcClient Config) (link : Link) (torn : Bool) {phase : Phase}
    (h : ∀ link, phase ≠ .exchanging link) : (s.leave link torn phase).links = s.closed ++ [(link, torn)] :=
  links_of_not_exchanging h

theorem Effect.connect (options : IpcClientOptions Config) (s : IpcClient Config)
    (opened : Except String (List UInt8)) (write : Write) : Effect options s (s.connect options opened write) := by
  unfold IpcClient.connect
  cases hphase : s.phase with
  | exchanging link => exact .quiet rfl rfl rfl rfl
  | waiting => exact .quiet rfl rfl rfl rfl
  | returned result => exact .quiet rfl rfl rfl rfl
  | connecting =>
    have hlinks : s.links = s.closed := links_of_not_exchanging (by rw [hphase]; nofun)
    have hreturns (result : Except RunError Unit) : Effect options s (s.returns result) :=
      .quiet hlinks.symm rfl rfl rfl
    dsimp only
    split
    · exact hreturns _
    · cases opened with
      | error text => exact hreturns _
      | ok heard =>
        dsimp only
        by_cases hsendable : options.hello.length < 4294967296
        · rw [sendFrame_short hsendable]
          have hfresh : s.closed ++ [(.fresh options.hello heard write, write.torn)] =
              s.links ++ [(.fresh options.hello heard write, write.torn)] := by
            rw [hlinks]
          cases write with
          | whole => exact .opens heard .whole hsendable hfresh rfl rfl rfl
          | failed bytes text => exact .opens heard (.failed bytes text) hsendable hfresh rfl rfl rfl
        · rw [show sendFrame (helloFrame options.hello) = .error _ from if_neg hsendable]
          exact hreturns _

theorem Effect.dispatch (s : IpcClient Config) {item : Inbound} {inbound : List Inbound}
    (hphase : s.phase = .exchanging link) (hnext : link.inbound = item :: inbound) :
    Effect options s (s.dispatch options { link with inbound } item) := by
  have hlinks := links_of_exchanging hphase
  have hleave (item : Inbound) (hnext : link.inbound = item :: inbound) {phase : Phase}
      (hgone : ∀ link, phase ≠ .exchanging link) (hnone : item.received.bind options.pushed = none) :
      Effect options s
        (s.leave { link with inbound, handed := link.handed ++ item.received.toList } false phase) := by
    refine .moves s.closed link _ false [] _ (.handles item inbound link.handshaked hnext) hlinks
      (links_leave s _ false hgone) rfl rfl ?_
    rw [hnone]
    exact (List.append_nil _).symm
  cases item with
  | eof =>
    have hlost := @hleave .eof hnext .waiting nofun rfl
    rwa [show Inbound.eof.received.toList = [] from rfl, List.append_nil] at hlost
  | error error =>
    have hlost := @hleave (.error error) hnext .waiting nofun rfl
    rwa [show (Inbound.error error).received.toList = [] from rfl, List.append_nil] at hlost
  | frame frame =>
    unfold IpcClient.dispatch
    dsimp only
    split
    · rename_i hwelcome
      cases hparse : options.parseWelcome frame.payload with
      | some config =>
        dsimp only
        refine .moves s.closed link _ false [] _ (.handles (.frame frame) inbound true hnext) hlinks rfl rfl rfl ?_
        simp [Inbound.received, IpcClientOptions.pushed, hwelcome, hparse]
      | none =>
        dsimp only
        refine .moves s.closed link _ false [] _ (.handles (.frame frame) inbound link.handshaked hnext) hlinks rfl rfl rfl ?_
        simp [Inbound.received, IpcClientOptions.pushed, hwelcome, hparse, IpcClient.exchange]
    · rename_i hother
      have hnone : (Inbound.frame frame).received.bind options.pushed = none := if_neg hother
      split
      · split
        · refine .moves s.closed link _ false [] _ (.handles (.frame frame) inbound link.handshaked hnext) hlinks rfl rfl rfl ?_
          rw [hnone]
          exact (List.append_nil _).symm
        · exact hleave (.frame frame) hnext nofun hnone
      · exact hleave (.frame frame) hnext nofun hnone

theorem Effect.forward {shot : Shot} {queue : List Shot} (write : Write) (hphase : s.phase = .exchanging link)
    (hqueue : s.queue = shot :: queue)
    (hshort : screenshotSeqLen + shot.2.length ≤ maxPayloadLen) :
    Effect options s ({ s with queue }.forward link shot write) := by
  have hsendable : (shotFrame shot).payload.length < 4294967296 := by
    show (leBytes screenshotSeqLen shot.1.toNat ++ shot.2).length < 4294967296
    rw [List.length_append, leBytes_length]
    unfold maxPayloadLen at hshort
    omega
  unfold IpcClient.forward
  rw [sendFrame_short hsendable]
  cases write with
  | whole =>
    exact .moves s.closed link _ false [shot] [] (.forwards shot .whole) (links_of_exchanging hphase) rfl hqueue rfl
      (List.append_nil _).symm
  | failed bytes text =>
    exact .moves s.closed link _ true [shot] [] (.forwards shot (.failed bytes text)) (links_of_exchanging hphase)
      rfl hqueue rfl (List.append_nil _).symm

theorem clientStep_effect (op : ClientOp)
    (hshort : ∀ shot ∈ s.queue, screenshotSeqLen + shot.2.length ≤ maxPayloadLen) :
    Effect options s (clientStep options s op) := by
  cases op with
  | cancel => exact .quiet rfl rfl rfl rfl
  | connect opened write => exact .connect options s opened write
  | send shot =>
    unfold clientStep IpcClient.send
    dsimp only
    split
    · exact .quiet rfl rfl rfl rfl
    · rename_i hfits
      split
      · exact .quiet rfl rfl rfl rfl
      · exact .accepts shot (Nat.not_lt.mp hfits) rfl rfl rfl rfl
  | read =>
    unfold clientStep
    cases hphase : s.phase with
    | exchanging link =>
      have hlinks := links_of_exchanging hphase
      dsimp only
      split
      · exact .moves s.closed link _ false [] [] .stops hlinks rfl rfl rfl (List.append_nil _).symm
      · exact .moves s.closed link _ false [] [] .reads hlinks rfl rfl rfl (List.append_nil _).symm
    | _ => exact .quiet rfl rfl rfl rfl
  | turn write =>
    unfold clientStep IpcClient.turn
    cases hphase : s.phase with
    | exchanging link =>
      dsimp only
      split
      · exact .moves s.closed link link false [] [] .still (links_of_exchanging hphase) rfl rfl rfl (List.append_nil _).symm
      · cases hinbound : link.inbound with
        | cons item inbound => exact .dispatch s hphase hinbound
        | nil =>
          cases hqueue : s.queue with
          | nil => exact .quiet rfl rfl rfl rfl
          | cons shot queue =>
            exact .forward write hphase hqueue
              (hshort shot (by rw [hqueue]; exact List.mem_cons_self))
    | _ => exact .quiet rfl rfl rfl rfl
  | wake =>
    unfold clientStep
    cases hphase : s.phase with
    | waiting =>
      have hlinks : s.links = s.closed := links_of_not_exchanging (by rw [hphase]; nofun)
      dsimp only
      split
      · exact .quiet hlinks.symm rfl rfl rfl
      · exact .quiet hlinks.symm rfl rfl rfl
    | _ => exact .quiet rfl rfl rfl rfl

/-! ## Runs -/

/-- What a connection is to carry. -/
def Link.frames (hello : List UInt8) (link : Link) : List Frame := helloFrame hello :: link.taken.map shotFrame

/-- If what the peer writes is frames, up to a cut, the dispatch loop gets them in their order. -/
def Link.Hears (link : Link) : Prop :=
  ∀ frames cut, (∀ frame ∈ frames, frame.Known) → link.heard = (frames.flatMap encodeFrame).take cut →
    ∃ rest cut', frames = link.handed ++ (link.inbound.filterMap Inbound.received ++ rest) ∧
      link.unread = (rest.flatMap encodeFrame).take cut'

structure Link.Sound (hello : List UInt8) (link : Link) (torn : Bool) : Prop where
  sendable : hello.length < 4294967296
  written : link.written <+: (link.frames hello).flatMap encodeFrame
  whole : torn = false → link.written = (link.frames hello).flatMap encodeFrame
  hears : link.Hears

theorem Write.bytes_prefix (data : List UInt8) (write : Write) : write.bytes data <+: data := by
  cases write with
  | whole => exact List.prefix_refl data
  | failed bytes text => exact List.take_prefix bytes data

theorem Write.bytes_whole {write : Write} (h : write.torn = false) (data : List UInt8) : write.bytes data = data := by
  cases write with
  | whole => rfl
  | failed bytes text => cases h

theorem Link.fresh_sound {hello : List UInt8} (hsendable : hello.length < 4294967296) (heard : List UInt8)
    (write : Write) : (Link.fresh hello heard write).Sound hello write.torn := by
  have hframes : ((Link.fresh hello heard write).frames hello).flatMap encodeFrame = encodeFrame (helloFrame hello) :=
    List.append_nil _
  refine ⟨hsendable, ?_, fun hwhole => ?_, fun frames cut _ hheard => ⟨frames, cut, rfl, hheard⟩⟩
  · rw [hframes]
    exact write.bytes_prefix _
  · rw [hframes]
    exact write.bytes_whole hwhole _

theorem Link.read_frame {frames : List Frame} (hknown : ∀ frame ∈ frames, frame.Known) (cut : ℕ) :
    readFrame ((frames.flatMap encodeFrame).take cut) = .stop .ended ∨
      ∃ frame rest cut', frames = frame :: rest ∧
        readFrame ((frames.flatMap encodeFrame).take cut) = .item frame ((rest.flatMap encodeFrame).take cut') :=
  read_take (fun _ hframe rest => readFrame_encode hframe (fun _ _ => rfl) rest)
    (fun _ hframe _ hn => readFrame_cut hframe (fun _ _ => rfl) hn) rfl hknown cut

theorem Link.Hears.read (h : link.Hears) : link.read.Hears := by
  unfold Link.read
  split
  · exact h
  · intro frames cut hknown hheard
    have hheard' : link.heard = (frames.flatMap encodeFrame).take cut := by
      rw [← hheard]
      cases readFrame link.unread with
      | item frame rest => rfl
      | stop outcome => cases outcome <;> rfl
    obtain ⟨rest, cut', hframes, hunread⟩ := h frames cut hknown hheard'
    have hrest : ∀ frame ∈ rest, frame.Known := by
      intro frame hmem
      refine hknown frame ?_
      rw [hframes]
      simp [hmem]
    rw [hunread]
    obtain hended | ⟨frame, rest', cut'', rfl, hitem⟩ := Link.read_frame hrest cut'
    · rw [hended]
      refine ⟨rest, cut', ?_, rfl⟩
      simp [hframes, Inbound.received]
    · rw [hitem]
      refine ⟨rest', cut'', ?_, rfl⟩
      simp [hframes, Inbound.received]

theorem Link.read_frame_eq (link : Link) :
    link.read.written = link.written ∧ link.read.taken = link.taken ∧ link.read.handed = link.handed := by
  unfold Link.read
  split
  · exact ⟨rfl, rfl, rfl⟩
  · cases readFrame link.unread with
    | item frame rest => exact ⟨rfl, rfl, rfl⟩
    | stop outcome => cases outcome <;> exact ⟨rfl, rfl, rfl⟩

section
variable {shots : List Shot} {configs : List Config} {link' : Link} {torn : Bool}

theorem LinkStep.sound (h : link.Sound options.hello false) (hstep : LinkStep options link shots configs link' torn) :
    link'.Sound options.hello torn := by
  cases hstep with
  | still => exact h
  | stops => exact ⟨h.sendable, h.written, h.whole, h.hears⟩
  | reads =>
    obtain ⟨hwritten, htaken, -⟩ := link.read_frame_eq
    refine ⟨h.sendable, ?_, ?_, h.hears.read⟩
    · rw [hwritten, Link.frames, htaken]
      exact h.written
    · rw [hwritten, Link.frames, htaken]
      exact h.whole
  | handles item inbound handshaked hnext =>
    refine ⟨h.sendable, h.written, h.whole, fun frames cut hknown hheard => ?_⟩
    obtain ⟨rest, cut', hframes, hunread⟩ := h.hears frames cut hknown hheard
    refine ⟨rest, cut', ?_, hunread⟩
    rw [hframes, hnext]
    cases item <;> simp [Inbound.received, List.filterMap_cons]
  | forwards shot write =>
    have hframes : (helloFrame options.hello :: (link.taken ++ [shot]).map shotFrame).flatMap encodeFrame =
        link.written ++ encodeFrame (shotFrame shot) := by
      rw [h.whole rfl]
      simp [Link.frames]
    refine ⟨h.sendable, ?_, fun hwhole => ?_, h.hears⟩
    · show link.written ++ write.bytes _ <+:
        (helloFrame options.hello :: (link.taken ++ [shot]).map shotFrame).flatMap encodeFrame
      rw [hframes]
      exact (List.prefix_append_right_inj _).mpr (write.bytes_prefix _)
    · show link.written ++ write.bytes _ =
        (helloFrame options.hello :: (link.taken ++ [shot]).map shotFrame).flatMap encodeFrame
      rw [hframes, write.bytes_whole hwhole]

theorem LinkStep.account (hstep : LinkStep options link shots configs link' torn) :
    link'.taken = link.taken ++ shots ∧
      link'.handed.filterMap options.pushed = link.handed.filterMap options.pushed ++ configs := by
  cases hstep with
  | still => exact ⟨(List.append_nil _).symm, (List.append_nil _).symm⟩
  | stops => exact ⟨(List.append_nil _).symm, (List.append_nil _).symm⟩
  | reads =>
    obtain ⟨-, htaken, hhanded⟩ := link.read_frame_eq
    rw [htaken, hhanded, List.append_nil, List.append_nil]
    exact ⟨rfl, rfl⟩
  | handles item inbound handshaked hnext =>
    refine ⟨(List.append_nil _).symm, ?_⟩
    dsimp only
    rw [List.filterMap_append]
    cases item.received with
    | none => rfl
    | some frame => cases hpushed : options.pushed frame <;> simp [hpushed]
  | forwards shot write => exact ⟨rfl, (List.append_nil _).symm⟩

end

/-- The sink's screenshots are taken in their order, each for one connection, and what the kernel gets is what the
frames push. -/
structure IpcClient.Sound (options : IpcClientOptions Config) (s : IpcClient Config) : Prop where
  short : ∀ shot ∈ s.accepted, screenshotSeqLen + shot.2.length ≤ maxPayloadLen
  account : s.accepted = s.links.flatMap (·.1.taken) ++ s.queue
  links : ∀ entry ∈ s.links, entry.1.Sound options.hello entry.2
  welcomes : s.welcomes = s.links.flatMap fun entry => entry.1.handed.filterMap options.pushed

theorem IpcClient.Sound.step (h : s.Sound options) (op : ClientOp) : (clientStep options s op).Sound options := by
  have hqueue : ∀ shot ∈ s.queue, screenshotSeqLen + shot.2.length ≤ maxPayloadLen := by
    intro shot hmem
    refine h.short shot ?_
    rw [h.account]
    exact List.mem_append_right _ hmem
  cases clientStep_effect op hqueue with
  | quiet hlinks hqueue haccepted hwelcomes =>
    exact ⟨haccepted ▸ h.short, by rw [haccepted, hlinks, hqueue]; exact h.account, hlinks ▸ h.links,
      by rw [hwelcomes, hlinks]; exact h.welcomes⟩
  | accepts shot hshort hlinks hqueue haccepted hwelcomes =>
    refine ⟨fun other hmem => ?_, ?_, hlinks ▸ h.links, by rw [hwelcomes, hlinks]; exact h.welcomes⟩
    · rw [haccepted] at hmem
      obtain hmem | hmem := List.mem_append.mp hmem
      · exact h.short other hmem
      · rwa [List.mem_singleton.mp hmem]
    · rw [haccepted, hlinks, hqueue, h.account, List.append_assoc]
  | opens heard write hsendable hlinks hqueue haccepted hwelcomes =>
    refine ⟨haccepted ▸ h.short, ?_, fun entry hmem => ?_, ?_⟩
    · rw [haccepted, hlinks, hqueue, h.account, List.flatMap_append]
      simp [Link.fresh]
    · rw [hlinks] at hmem
      obtain hmem | hmem := List.mem_append.mp hmem
      · exact h.links entry hmem
      · rw [List.mem_singleton.mp hmem]
        exact Link.fresh_sound hsendable heard write
    · rw [hwelcomes, hlinks, h.welcomes, List.flatMap_append]
      simp [Link.fresh]
  | moves before link link' torn shots configs hstep hlinks hlinks' hqueue haccepted hwelcomes =>
    obtain ⟨htaken, hhanded⟩ := hstep.account
    refine ⟨haccepted ▸ h.short, ?_, fun entry hmem => ?_, ?_⟩
    · rw [haccepted, h.account, hlinks, hlinks', hqueue, List.flatMap_append, List.flatMap_append]
      simp [htaken]
    · rw [hlinks'] at hmem
      obtain hmem | hmem := List.mem_append.mp hmem
      · exact h.links entry (by rw [hlinks]; exact List.mem_append_left _ hmem)
      · rw [List.mem_singleton.mp hmem]
        exact hstep.sound (h.links (link, false) (by rw [hlinks]; simp))
    · rw [hwelcomes, h.welcomes, hlinks, hlinks', List.flatMap_append, List.flatMap_append]
      simp [hhanded]

theorem sound_start (options : IpcClientOptions Config) : (IpcClient.start : IpcClient Config).Sound options :=
  ⟨nofun, rfl, nofun, rfl⟩

end

end SecOutfall.Ipc.Client
