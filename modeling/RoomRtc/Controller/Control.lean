import RoomRtc.File.FtpMessage
import RoomRtc.Foundations.Attempts
import RoomRtc.Media.Microphone
import RoomRtc.Server.UserHandler
import RoomRtc.Session.CallSetup
import RoomRtc.Transport.RtcpPacket

/-! The controller (`controller/control.rs`): what the client does with the server, its session, its
transport and its media when the user or an event asks for it. A method that fails half way leaves
what it has done; what lies outside the client answers each of its questions. -/
namespace RoomRtc.Control
open Session Transport Media Attempts
set_option autoImplicit false

/-! ## Events and errors -/

abbrev Sdp := SessionDescriptionProtocol

/-- `controller/app_event.rs` -/
inductive AppEvent where
  | fullServerError
  | callIncoming (peer : Str) (offerSdp : Sdp)
  | callAccepted (answerSdp : Sdp) (username peerUsername : Str)
  | callRejected
  | callEnded
  | error (text : Str)
  | fatalError
  | localStatsUpdate (stats : CallStats)
  | remoteStatsUpdate (stats : CallStats)
  | remoteFileOffer (id : UInt32) (metadata : File.FileMetadata)
  | fileDownloadCompleted (id : UInt32)
deriving DecidableEq

/-- The events that the methods of the controller send; those of the threads of a call are not among them. -/
def AppEvent.isNotice : AppEvent → Bool
  | fullServerError | callRejected | error _ | fatalError => true
  | _ => false

/-- What an error of another component is made of; it stands for the text of that error. -/
inductive Cause where
  | session (e : CallSessionError)
  | checks (e : ConnectivityError)
  | addresses (e : AddressError)
  | transport
  | files
  | media
  | server (text : Str)
deriving DecidableEq

/-- The variants that the methods end with. -/
inductive ControllerError where
  | ioError
  | badResponse
  | logInFailed (text : Str)
  | logOutFailed (text : Str)
  | connectionSocketError
  | cloningSocketError
  | mapError (cause : Cause)
  | notLoggedInError
  | callError (text : Str)
deriving DecidableEq

/-! ## The components -/

/-- `MediaTransport`, as far as the other threads and `stop` see it. -/
structure MediaTransport where
  connected : Bool
  rtcpHandler : Bool
deriving DecidableEq, Repr

/-- `MediaPipeline`: whether the camera runs, and its microphone. -/
structure MediaPipeline where
  camera : Bool
  microphone : Microphone
deriving DecidableEq, Repr

structure Controller where
  usersStatus : StatusMap
  token : Option Str
  username : Option Str
  loggedIn : Bool
  /-- There is a file transferer. -/
  fileTransferer : Bool
  transport : MediaTransport
  callSession : CallSession
  mediaPipeline : MediaPipeline
  /-- The channel of the events, oldest first. -/
  events : List AppEvent

def Controller.new (callSession : CallSession) : Controller where
  usersStatus := ∅
  token := none
  username := none
  loggedIn := false
  fileTransferer := false
  transport := ⟨false, false⟩
  callSession := callSession
  mediaPipeline := ⟨false, .new⟩
  events := []

/-! ## What answers from outside -/

/-- What comes of a message to the server: no exchange at all, a response that cannot be read, or one
that can. -/
inductive Reply where
  | failed
  | unreadable
  | response (r : ServerResponse)

/-- How far `MediaTransport::start` comes: DTLS, the sockets and the keys; the handshake of the reports, which
raises the flag and may still fail then; the threads. -/
inductive TransportStart where
  | unsecured
  | unacquainted (raised : Bool)
  | threadless
  | started
deriving DecidableEq, Repr

/-- How far `MediaPipeline::start` comes; the encoder's error has a text of its own. -/
inductive MediaStart where
  | withoutEncoder (text : Str)
  | withoutDecoder
  | withoutAudio (microphone : Bool)
  | started
deriving DecidableEq

/-- What the outside answers while one method runs. -/
structure Outside where
  server : ClientMessage Sdp → Reply
  /-- The push stream can be opened. -/
  pushStream : Bool
  /-- For the connectivity checks. -/
  timeoutSet : Bool
  network : ℕ → List Attempt
  transport : RemoteAddresses → DtlsSetupRole → Fingerprint → TransportStart
  transferer : SocketAddrV4 → DtlsSetupRole → Fingerprint → Bool
  media : MediaStart
  /-- `MediaTransport::stop`: the timeouts are cleared, the goodbye is sent. -/
  timeoutsCleared : Bool
  goodbyeSent : Bool
  /-- After a call: the sockets are bound, cloned, and a session is made. -/
  bound : Bool
  cloned : Bool
  session : Except CallSessionError CallSession
  /-- The methods of the file transferer succeed. -/
  fileSent : Bool
  fileAccepted : Bool
  fileRejected : Bool

abbrev Call := EStateM ControllerError Controller

/-- The event channel is read as long as the program runs. -/
def sendEvent (event : AppEvent) : Call Unit := modify fun c => { c with events := c.events ++ [event] }

def sendMessage (o : Outside) (message : ClientMessage Sdp) : Call ServerResponse :=
  match o.server message with
  | .failed => do
    sendEvent .fatalError
    throw .ioError
  | .unreadable => throw .badResponse
  | .response r => pure r

def getToken : Call Str := do
  let c ← get
  match c.token with
  | some token => pure token
  | none => throw .notLoggedInError

def getUsername : Call Str := getToken

/-! ## Files -/

/-- Without a transferer nothing is done. -/
def withTransferer (succeeds : Bool) : Call Unit := do
  let c ← get
  ensure (!c.fileTransferer || succeeds) (.mapError .files)

def sendFile (o : Outside) : Call Unit := withTransferer o.fileSent

def acceptFile (o : Outside) : Call Unit := withTransferer o.fileAccepted

def rejectFile (o : Outside) : Call Unit := withTransferer o.fileRejected

/-! ## Calls -/

/-- What a method of the session leaves, with its result. -/
def onSession {α ε : Type} (cause : ε → Cause) (f : CallSession → CallSession × Except ε α) : Call α := do
  let c ← get
  let (callSession, result) := f c.callSession
  modify fun c => { c with callSession }
  match result with
  | .ok a => pure a
  | .error e => throw (.mapError (cause e))

def call (o : Outside) (peerUsername : Str) : Call Unit := do
  let token ← getToken
  let c ← get
  match ← sendMessage o (.callRequest token c.callSession.getOffer peerUsername) with
  | .callRequestOk => pure ()
  | .callRequestError e => throw (.callError e)
  | _ => throw .badResponse

def startTransport (o : Outside) (addresses : RemoteAddresses) (role : DtlsSetupRole) (fingerprint : Fingerprint) :
    Call Unit :=
  match o.transport addresses role fingerprint with
  | .unsecured => throw (.mapError .transport)
  | .unacquainted raised => do
    modify fun c => { c with transport.connected := c.transport.connected || raised }
    throw (.mapError .transport)
  | .threadless => do
    modify fun c => { c with transport := ⟨true, true⟩ }
    throw (.mapError .transport)
  | .started => modify fun c => { c with transport := ⟨true, true⟩ }

def setupFileTransferer (o : Outside) (address : SocketAddrV4) (role : DtlsSetupRole) (fingerprint : Fingerprint) :
    Call Unit := do
  ensure (o.transferer address role fingerprint) (.mapError .files)
  modify fun c => { c with fileTransferer := true }

def startMedia (o : Outside) : Call Unit :=
  match o.media with
  | .withoutEncoder text => do
    sendEvent (.error text)
    throw (.mapError .media)
  | .withoutDecoder => do
    modify fun c => { c with mediaPipeline.camera := true }
    sendEvent (.error "Failed to create decoder".toList)
    throw (.mapError .media)
  | .withoutAudio microphone => do
    modify fun c => { c with
      mediaPipeline.camera := true
      mediaPipeline.microphone := (c.mediaPipeline.microphone.start microphone).1 }
    throw (.mapError .media)
  | .started =>
    modify fun c => { c with
      mediaPipeline.camera := true
      mediaPipeline.microphone := (c.mediaPipeline.microphone.start true).1 }

def joinCall (o : Outside) : Call Unit := do
  let c ← get
  match getRemoteAddresses c.callSession with
  | .error e => throw (.mapError (.addresses e))
  | .ok addresses =>
    match c.callSession.remoteFingerprint with
    | none => throw .notLoggedInError
    | some fingerprint =>
      startTransport o addresses c.callSession.localSetupRole fingerprint
      setupFileTransferer o addresses.sctp c.callSession.localSetupRole fingerprint
      startMedia o

def getInCall (o : Outside) (sdpAnswer : Sdp) : Call Unit := do
  onSession .session fun s => s.processAnswer sdpAnswer
  onSession .checks fun s => s.startIceChecks o.timeoutSet o.network
  joinCall o

def stopMediaComponents (o : Outside) : Call Unit := do
  modify fun c => { c with
    mediaPipeline := { camera := false, microphone := c.mediaPipeline.microphone.stop }
    transport.connected := false }
  ensure o.timeoutsCleared (.mapError .transport)
  let c ← get
  ensure (!c.transport.rtcpHandler || o.goodbyeSent) (.mapError .transport)

def sendHangUp (o : Outside) : Call Unit := do
  let token ← getToken
  match ← sendMessage o (.callHangup token) with
  | .callHangUpOk => pure ()
  | .callHangUpError e => throw (.callError e)
  | _ => throw .badResponse

/-- The new transport and the new session that `hang_up` ends with. -/
def renew (o : Outside) : Call Unit := do
  modify fun c => { c with fileTransferer := false }
  ensure o.bound (.mapError .transport)
  modify fun c => { c with transport := ⟨false, false⟩ }
  ensure o.cloned .cloningSocketError
  match o.session with
  | .error e => throw (.mapError (.session e))
  | .ok callSession => modify fun c => { c with callSession }

def hangUp (o : Outside) : Call Unit := do
  sendHangUp o
  stopMediaComponents o
  renew o

def acceptCall (o : Outside) (toUsr : Str) (offerSdp : Sdp) : Call Unit := do
  let sdpAnswer ← onSession .session fun s => s.processOffer offerSdp
  let token ← getToken
  match ← sendMessage o (.callAccept token toUsr sdpAnswer) with
  | .callAcceptOk =>
    onSession .checks fun s => s.startIceChecks o.timeoutSet o.network
    joinCall o
  | .callAcceptError e => throw (.callError e)
  | _ => throw .badResponse

def rejectCall (o : Outside) (toUsr : Str) : Call Unit := do
  let token ← getToken
  match ← sendMessage o (.callReject token toUsr) with
  | .callRejectOk => sendEvent .callRejected
  | .callRejectError e => throw (.callError e)
  | _ => throw .badResponse

/-! ## Authentication -/

def signUp (o : Outside) (username password : Str) : Call Unit := do
  match ← sendMessage o (.signUp username password) with
  | .signupOk => pure ()
  | .signupError e => throw (.mapError (.server e))
  | _ => throw .badResponse

def logIn (o : Outside) (username password : Str) : Call Unit := do
  match ← sendMessage o (.logIn username password) with
  | .loginOk token _ usersStatus =>
    modify fun c => { c with usersStatus, token := some token, loggedIn := true, username := some username }
    ensure o.pushStream .connectionSocketError
  | .loginError e => throw (.logInFailed e)
  | _ => throw .badResponse

def logOut (o : Outside) : Call Unit := do
  let token ← getToken
  match ← sendMessage o (.logOut token) with
  | .logoutOk => modify fun c => { c with loggedIn := false, token := none, usersStatus := ∅ }
  | .logoutError e => throw (.logOutFailed e)
  | _ => throw .badResponse

def initialHandshake (o : Outside) : Call Unit := do
  match ← sendMessage o .hello with
  | .welcome => pure ()
  | .serverFull => sendEvent .fullServerError
  | _ => throw .badResponse

/-! ## Other threads -/

/-- What the thread of the push stream makes of a message; the name it was started with is its own. -/
def getResponseForServerMessage (username : Str) (message : ServerMessage Sdp) (c : Controller) :
    Controller × Option Str :=
  match message with
  | .usernameRequest => (c, some username)
  | .userStatusUpdate user status => ({ c with usersStatus := c.usersStatus.insert user status }, none)
  | .callIncoming fromUsr offerSdp => ({ c with events := c.events ++ [.callIncoming fromUsr offerSdp] }, none)
  | .callAccepted fromUsr sdpAnswer =>
    ({ c with events := c.events ++ [.callAccepted sdpAnswer username fromUsr] }, none)
  | .callRejected => ({ c with events := c.events ++ [.callRejected] }, none)
  | .error e => ({ c with events := c.events ++ [.error e] }, none)

def toggleAudio (c : Controller) : Controller :=
  { c with mediaPipeline.microphone := c.mediaPipeline.microphone.toggleMute }

/-! ## What the methods leave -/

/-- Notices have come behind the events that wait. -/
def Notified (c c' : Controller) : Prop :=
    ∃ notices, (∀ e ∈ notices, e.isNotice = true) ∧ c'.events = c.events ++ notices

theorem notified_of_events {c c' : Controller} (h : c'.events = c.events) : Notified c c' :=
  ⟨[], nofun, h.trans (List.append_nil _).symm⟩

theorem notified_trans (c d e : Controller) (h : Notified c d) (h' : Notified d e) : Notified c e := by
  obtain ⟨notices, hall, hd⟩ := h
  obtain ⟨notices', hall', he⟩ := h'
  refine ⟨notices ++ notices', fun x hx => ?_, by rw [he, hd, List.append_assoc]⟩
  exact (List.mem_append.mp hx).elim (hall x) (hall' x)

/-- Nothing else has changed. -/
structure OnlyEvents (c c' : Controller) : Prop where
  notified : Notified c c'
  same : c' = { c with events := c'.events }

theorem onlyEvents_refl (c : Controller) : OnlyEvents c c := ⟨notified_of_events rfl, rfl⟩

theorem onlyEvents_trans (c d e : Controller) (h : OnlyEvents c d) (h' : OnlyEvents d e) : OnlyEvents c e := by
  refine ⟨notified_trans c d e h.notified h'.notified, ?_⟩
  rw [h'.same, h.same]

theorem sendEvent_keeps {event : AppEvent} (h : event.isNotice = true) : Keeps OnlyEvents (sendEvent event) := fun c =>
  ⟨⟨[event], by simpa using h, rfl⟩, rfl⟩

variable {o : Outside} {c : Controller}

theorem getToken_ends (c : Controller) : Ends getToken c (fun token c' => c' = c ∧ c.token = some token)
    fun _ c' => c' = c ∧ c.token = none := by
  rw [getToken, ends_bind, ends_get]
  split
  · next token h => exact ⟨rfl, h⟩
  · next h => exact ⟨rfl, h⟩

theorem sendMessage_ends (o : Outside) (message : ClientMessage Sdp) (c : Controller) :
    Ends (sendMessage o message) c (fun r c' => c' = c ∧ o.server message = .response r)
      fun _ c' => OnlyEvents c c' ∧ ∀ r, o.server message ≠ .response r := by
  rw [sendMessage]
  split
  · next h => exact ⟨sendEvent_keeps rfl c, fun r => by rw [h]; exact Reply.noConfusion⟩
  · next h => exact ⟨onlyEvents_refl c, fun r => by rw [h]; exact Reply.noConfusion⟩
  · next r h => exact ⟨rfl, h⟩

theorem sendMessage_keeps (o : Outside) (message : ClientMessage Sdp) : Keeps OnlyEvents (sendMessage o message) := by
  intro c
  refine (sendMessage_ends o message c).mono ?_ fun _ _ h => h.1
  rintro _ _ ⟨rfl, _⟩
  exact onlyEvents_refl _

theorem getToken_keeps : Keeps OnlyEvents getToken := by
  intro c
  refine (getToken_ends c).mono ?_ ?_
  all_goals
    rintro _ _ ⟨rfl, _⟩
    exact onlyEvents_refl _

/-- A request with the token, whatever is made of the response. -/
theorem request_keeps {α : Type} (message : Str → ClientMessage Sdp) {answer : ServerResponse → Call α}
    (hanswer : ∀ r, Keeps OnlyEvents (answer r)) :
    Keeps OnlyEvents (getToken >>= fun token => sendMessage o (message token) >>= answer) :=
  keeps_bind onlyEvents_trans getToken_keeps fun token =>
    keeps_bind onlyEvents_trans (sendMessage_keeps o (message token)) hanswer

theorem rejectCall_keeps (toUsr : Str) : Keeps OnlyEvents (rejectCall o toUsr) := by
  refine request_keeps (fun token => .callReject token toUsr) fun r => ?_
  cases r with
  | callRejectOk => exact sendEvent_keeps rfl
  | _ => exact keeps_throw onlyEvents_refl _

theorem call_keeps (peerUsername : Str) : Keeps OnlyEvents (call o peerUsername) := by
  refine keeps_bind onlyEvents_trans getToken_keeps fun token => ?_
  refine keeps_bind onlyEvents_trans (fun c => onlyEvents_refl c) fun c₁ => ?_
  refine keeps_bind onlyEvents_trans (sendMessage_keeps o _) fun r => ?_
  cases r with
  | callRequestOk => exact keeps_pure onlyEvents_refl _
  | _ => exact keeps_throw onlyEvents_refl _

theorem signUp_keeps (username password : Str) : Keeps OnlyEvents (signUp o username password) := by
  refine keeps_bind onlyEvents_trans (sendMessage_keeps o _) fun r => ?_
  cases r with
  | signupOk => exact keeps_pure onlyEvents_refl _
  | _ => exact keeps_throw onlyEvents_refl _

theorem initialHandshake_keeps : Keeps OnlyEvents (initialHandshake o) := by
  refine keeps_bind onlyEvents_trans (sendMessage_keeps o _) fun r => ?_
  cases r with
  | welcome => exact keeps_pure onlyEvents_refl _
  | serverFull => exact sendEvent_keeps rfl
  | _ => exact keeps_throw onlyEvents_refl _

/-- Nothing of a call has changed. -/
structure SameCall (c c' : Controller) : Prop where
  fileTransferer : c'.fileTransferer = c.fileTransferer
  transport : c'.transport = c.transport
  callSession : c'.callSession = c.callSession
  mediaPipeline : c'.mediaPipeline = c.mediaPipeline
  notified : Notified c c'

theorem OnlyEvents.sameCall {c' : Controller} (h : OnlyEvents c c') : SameCall c c' := by
  have hsame := h.same
  refine ⟨?_, ?_, ?_, ?_, h.notified⟩
  all_goals rw [hsame]

theorem sameCall_refl (c : Controller) : SameCall c c := ⟨rfl, rfl, rfl, rfl, notified_of_events rfl⟩

theorem sameCall_trans (c d e : Controller) (h : SameCall c d) (h' : SameCall d e) : SameCall c e :=
  ⟨h'.1.trans h.1, h'.2.trans h.2, h'.3.trans h.3, h'.4.trans h.4, notified_trans c d e h.5 h'.5⟩

theorem keeps_sameCall {α : Type} {x : Call α} (h : Keeps OnlyEvents x) : Keeps SameCall x := fun c =>
  (h c).mono (fun _ _ h => h.sameCall) fun _ _ h => h.sameCall

theorem logIn_keeps (username password : Str) : Keeps SameCall (logIn o username password) := by
  refine keeps_bind sameCall_trans (keeps_sameCall (sendMessage_keeps o _)) fun r => ?_
  cases r with
  | loginOk token address usersStatus =>
    refine keeps_bind sameCall_trans (fun c => ⟨rfl, rfl, rfl, rfl, notified_of_events rfl⟩) fun _ => ?_
    exact keeps_ensure sameCall_refl _ _
  | _ => exact keeps_throw sameCall_refl _

theorem logOut_keeps : Keeps SameCall (logOut o) := by
  refine keeps_bind sameCall_trans (keeps_sameCall getToken_keeps) fun token => ?_
  refine keeps_bind sameCall_trans (keeps_sameCall (sendMessage_keeps o _)) fun r => ?_
  cases r with
  | logoutOk => exact fun c => ⟨rfl, rfl, rfl, rfl, notified_of_events rfl⟩
  | _ => exact keeps_throw sameCall_refl _

/-! ## Hanging up -/

/-- The server lets the user hang up. -/
def Granted (o : Outside) (c : Controller) : Prop :=
  ∃ token, c.token = some token ∧ o.server (.callHangup token) = .response .callHangUpOk

/-- No call is left: the flag is down, camera and microphone are off. -/
structure Stopped (c c' : Controller) : Prop where
  connected : c'.transport.connected = false
  camera : c'.mediaPipeline.camera = false
  microphone : c'.mediaPipeline.microphone = .new
  usersStatus : c'.usersStatus = c.usersStatus
  token : c'.token = c.token
  username : c'.username = c.username
  loggedIn : c'.loggedIn = c.loggedIn
  events : c'.events = c.events

theorem sendHangUp_ends (o : Outside) (c : Controller) : Ends (sendHangUp o) c (fun _ c' => c' = c ∧ Granted o c)
    fun _ c' => OnlyEvents c c' ∧ ¬Granted o c := by
  rw [sendHangUp, ends_bind]
  refine (getToken_ends c).mono ?_ ?_
  · rintro token c ⟨rfl, htoken⟩
    have hgranted : Granted o c ↔ o.server (.callHangup token) = .response .callHangUpOk := by
      rw [Granted, htoken]
      simp
    rw [ends_bind]
    refine (sendMessage_ends o _ c).mono ?_ fun e c' h => ⟨h.1, fun hg => h.2 _ (hgranted.mp hg)⟩
    rintro r c ⟨rfl, hr⟩
    rw [hgranted, hr, Reply.response.injEq]
    cases r with
    | callHangUpOk => exact ⟨rfl, rfl⟩
    | _ => exact ⟨onlyEvents_refl _, ServerResponse.noConfusion⟩
  · rintro _ _ ⟨rfl, hnone⟩
    refine ⟨onlyEvents_refl _, ?_⟩
    rintro ⟨token, htoken, _⟩
    rw [hnone] at htoken
    cases htoken

theorem stopMediaComponents_ends (o : Outside) (c : Controller) :
    Ends (stopMediaComponents o) c (fun _ => Stopped c) fun _ => Stopped c := by
  have h : Stopped c { c with
      mediaPipeline := { camera := false, microphone := c.mediaPipeline.microphone.stop }
      transport.connected := false } := ⟨rfl, rfl, rfl, rfl, rfl, rfl, rfl, rfl⟩
  simp only [stopMediaComponents, ends_bind, ends_modify, ends_ensure, ends_get]
  exact ⟨fun _ => ⟨fun _ => h, fun _ => h⟩, fun _ => h⟩

theorem renew_ends (o : Outside) {c₀ : Controller} (h : Stopped c₀ c) :
    Ends (renew o) c (fun _ c' => Stopped c₀ c' ∧ c'.fileTransferer = false ∧ o.session = .ok c'.callSession)
      fun _ => Stopped c₀ := by
  obtain ⟨hconnected, hcamera, hmicrophone, hstatus, htoken, husername, hlogged, hevents⟩ := h
  have h₁ : Stopped c₀ { c with fileTransferer := false } :=
    ⟨hconnected, hcamera, hmicrophone, hstatus, htoken, husername, hlogged, hevents⟩
  have h₂ : Stopped c₀ { c with fileTransferer := false, transport := ⟨false, false⟩ } :=
    ⟨rfl, hcamera, hmicrophone, hstatus, htoken, husername, hlogged, hevents⟩
  simp only [renew, ends_bind, ends_modify, ends_ensure]
  refine ⟨fun _ => ⟨fun _ => ?_, fun _ => h₂⟩, fun _ => h₁⟩
  cases hsession : o.session with
  | error e => exact h₂
  | ok callSession =>
    exact ⟨⟨rfl, hcamera, hmicrophone, hstatus, htoken, husername, hlogged, hevents⟩, rfl, rfl⟩

/-- **`hang_up`.** Unless the server grants it nothing happens; if it does, the call is over whatever fails
afterwards. -/
theorem hangUp_ends (o : Outside) (c : Controller) :
    Ends (hangUp o) c
      (fun _ c' => Granted o c ∧ Stopped c c' ∧ c'.fileTransferer = false ∧ o.session = .ok c'.callSession)
      fun _ c' => Granted o c ∧ Stopped c c' ∨ ¬Granted o c ∧ OnlyEvents c c' := by
  rw [hangUp, ends_bind]
  refine (sendHangUp_ends o c).mono ?_ fun _ _ h => .inr ⟨h.2, h.1⟩
  rintro _ _ ⟨rfl, hgranted⟩
  rw [ends_bind]
  refine (stopMediaComponents_ends o _).mono (fun _ c₁ h₁ => ?_) fun _ _ h => .inl ⟨hgranted, h⟩
  exact (renew_ends o h₁).mono (fun _ _ h => ⟨hgranted, h⟩) fun _ _ h => .inl ⟨hgranted, h⟩

/-! ## Joining a call -/

/-- Joining leaves who the user is. -/
structure SameUser (c c' : Controller) : Prop where
  token : c'.token = c.token
  notified : Notified c c'

theorem sameUser_trans (c d e : Controller) (h : SameUser c d) (h' : SameUser d e) : SameUser c e :=
  ⟨h'.token.trans h.token, notified_trans c d e h.notified h'.notified⟩

theorem onSession_keeps {α ε : Type} (cause : ε → Cause) (f : CallSession → CallSession × Except ε α) :
    Keeps SameUser (onSession cause f) := by
  intro c
  have h : SameUser c { c with callSession := (f c.callSession).1 } := ⟨rfl, notified_of_events rfl⟩
  rw [onSession, ends_bind, ends_get]
  cases hf : (f c.callSession).2 with
  | ok a =>
    simp only [hf, ends_bind, ends_modify, ends_pure]
    exact h
  | error e =>
    simp only [hf, ends_bind, ends_modify, ends_throw]
    exact h

/-- Whoever joins is connected. -/
theorem joinCall_ends (o : Outside) (c : Controller) :
    Ends (joinCall o) c (fun _ c' => c'.transport.connected = true ∧ SameUser c c') fun _ c' => SameUser c c' := by
  have hsame : ∀ c' : Controller, c'.token = c.token → c'.events = c.events →
    SameUser c c' := fun c' htoken hevents =>
    ⟨htoken, notified_of_events hevents⟩
  rw [joinCall, ends_bind, ends_get]
  split
  · exact hsame c rfl rfl
  · next addresses _ =>
    split
    · exact hsame c rfl rfl
    · next fingerprint _ =>
      rw [ends_bind]
      have hstart : Ends (startTransport o addresses c.callSession.localSetupRole fingerprint) c
          (fun _ c' => c'.transport.connected = true ∧ SameUser c c') fun _ c' => SameUser c c' := by
        rw [startTransport]
        cases o.transport addresses c.callSession.localSetupRole fingerprint with
        | unsecured => exact hsame c rfl rfl
        | unacquainted raised =>
          simp only [ends_bind, ends_modify, ends_throw]
          exact hsame _ rfl rfl
        | threadless =>
          simp only [ends_bind, ends_modify, ends_throw]
          exact hsame _ rfl rfl
        | started => exact ⟨rfl, hsame _ rfl rfl⟩
      refine hstart.mono (fun _ c₁ h₁ => ?_) fun _ _ h => h
      obtain ⟨hconnected, htoken, hnotified⟩ := h₁
      simp only [setupFileTransferer, ends_bind, ends_ensure, ends_modify]
      refine ⟨fun _ => ?_, fun _ => ⟨htoken, hnotified⟩⟩
      have htext : ∀ text, Notified c₁ { c₁ with events := c₁.events ++ [.error text] } := fun text =>
        (sendEvent_keeps rfl c₁).notified
      rw [startMedia]
      cases o.media with
      | withoutEncoder text => exact ⟨htoken, notified_trans _ _ _ hnotified (htext text)⟩
      | withoutDecoder => exact ⟨htoken, notified_trans _ _ _ hnotified (htext _)⟩
      | withoutAudio microphone => exact ⟨htoken, hnotified⟩
      | started => exact ⟨hconnected, htoken, hnotified⟩

theorem getInCall_ends (o : Outside) (sdpAnswer : Sdp) (c : Controller) :
    Ends (getInCall o sdpAnswer) c (fun _ c' => c'.transport.connected = true ∧ Notified c c')
      fun _ c' => Notified c c' := by
  rw [getInCall, ends_bind]
  refine (onSession_keeps _ _ c).mono (fun _ c₁ h₁ => ?_) fun _ _ h => h.notified
  rw [ends_bind]
  refine (onSession_keeps _ _ c₁).mono (fun _ c₂ h₂ => ?_) fun _ _ h => (sameUser_trans _ _ _ h₁ h).notified
  have h := sameUser_trans _ _ _ h₁ h₂
  refine (joinCall_ends o c₂).mono (fun _ _ h₃ => ⟨h₃.1, ?_⟩) fun _ _ h₃ =>
    (sameUser_trans _ _ _ h h₃).notified
  exact (sameUser_trans _ _ _ h h₃.2).notified

/-- Who has accepted a call is connected and logged in. -/
theorem acceptCall_ends (o : Outside) (toUsr : Str) (offerSdp : Sdp) (c : Controller) :
    Ends (acceptCall o toUsr offerSdp) c
      (fun _ c' => c'.transport.connected = true ∧ (∃ token, c'.token = some token) ∧ Notified c c')
      fun _ c' => Notified c c' := by
  rw [acceptCall, ends_bind]
  refine (onSession_keeps _ _ c).mono (fun _ c₁ h₁ => ?_) fun _ _ h => h.notified
  rw [ends_bind]
  refine (getToken_ends c₁).mono ?_ ?_
  · rintro token c₁ ⟨rfl, htoken⟩
    rw [ends_bind]
    refine (sendMessage_ends o _ c₁).mono ?_ fun _ _ h => notified_trans _ _ _ h₁.notified h.1.notified
    rintro r c₁ ⟨rfl, _⟩
    cases r with
    | callAcceptOk =>
      rw [ends_bind]
      refine (onSession_keeps _ _ c₁).mono (fun _ c₂ h₂ => ?_) fun _ _ h => (sameUser_trans _ _ _ h₁ h).notified
      have h := sameUser_trans _ _ _ h₁ h₂
      refine (joinCall_ends o c₂).mono (fun _ c₃ h₃ => ?_) fun _ _ h₃ => (sameUser_trans _ _ _ h h₃).notified
      exact ⟨h₃.1, ⟨token, h₃.2.token.trans (h₂.token.trans htoken)⟩,
        (sameUser_trans _ _ _ h h₃.2).notified⟩
    | _ => exact h₁.notified
  · rintro _ _ ⟨rfl, _⟩
    exact h₁.notified

end RoomRtc.Control
