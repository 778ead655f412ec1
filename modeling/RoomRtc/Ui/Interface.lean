import RoomRtc.Controller.Control
import RoomRtc.Foundations.Machine

/-! The application (`ui/interface.rs`): the screen it shows, what an event of the other threads does
to it and what a click does. In every frame the thread of the user takes the events one by one until
there are none, looks after the file dialogs and draws the screen; the other threads go on meanwhile. -/
namespace RoomRtc.Ui
open Control
open Transport (CallStats)
set_option autoImplicit false

/-- `ui/views.rs` -/
inductive View where
  | welcome
  | signUp
  | logIn
  | callHub
  | calling (peerUsername : Str)
  | callIncoming (peerUsername : Str) (sdpOffer : Sdp)
  | callEnded
  | call (username peerUsername : Str)
  | error
  | fatalError
  | fullServer
deriving DecidableEq

/-- What a warning is made of. -/
inductive Warning where
  | text (t : Str)
  | error (e : ControllerError)
  | failedToAcceptFile (e : ControllerError)
  | failedToRejectFile (e : ControllerError)
deriving DecidableEq

/-- A dialog asks where to save the file of an offer. -/
structure SaveDialog where
  id : UInt32
  metadata : File.FileMetadata
deriving DecidableEq, Repr

/-- The parts of a frame. -/
inductive FramePart where
  | events
  | files
  | screen
deriving DecidableEq, Repr

structure RoomRtcApp where
  view : View
  controller : Controller
  usernameBuff : Str
  passwordBuff : Str
  warningMsg : Option Warning
  lastStats : Option CallStats
  /-- Times are in nanoseconds. -/
  timeCallIncoming : Option ℕ
  fileOffers : UInt32 → Option File.FileMetadata
  fileDownloads : UInt32 → Option File.FileMetadata
  /-- A dialog asks which file to send. -/
  fileSendRx : Bool
  fileSaveRx : Option SaveDialog
  isMuted : Bool
  /-- Where the thread of the user stands, and the time. -/
  part : FramePart
  now : ℕ

/-- A click; a text that is typed counts as one. -/
inductive Click where
  | closeWarning
  | signUpScreen
  | logInScreen
  | typed (username password : Str)
  | back
  | submit
  | logOut
  | call (username : Str)
  | accept
  | decline
  | mute
  | endCall
  | sendFile
  | acceptOffer (id : UInt32)
  | rejectOffer (id : UInt32)
  | backToHub
  | ok
deriving DecidableEq

namespace RoomRtcApp

/-- The program ends at once if the server does not answer the handshake. -/
def new (o : Outside) (callSession : Session.CallSession) : Option RoomRtcApp :=
  match initialHandshake o (.new callSession) with
  | .ok _ controller => some {
      view := .welcome
      controller
      usernameBuff := []
      passwordBuff := []
      warningMsg := none
      lastStats := none
      timeCallIncoming := none
      fileOffers := fun _ => none
      fileDownloads := fun _ => none
      fileSendRx := false
      fileSaveRx := none
      isMuted := false
      part := .events
      now := 0 }
  | .error _ _ => none

/-! ## Events -/

def resetAfterCall (s : RoomRtcApp) : RoomRtcApp :=
  { s with timeCallIncoming := none, fileOffers := fun _ => none, fileDownloads := fun _ => none, isMuted := false }

/-- `hang_up`, with the screen that either outcome leads to. -/
def hangUp (o : Outside) (s : RoomRtcApp) (hungUp : RoomRtcApp → RoomRtcApp) : RoomRtcApp :=
  match Control.hangUp o s.controller with
  | .ok _ controller => hungUp { s with controller }
  | .error _ controller => { s with controller, view := .fatalError }

def handleEvent (o : Outside) (s : RoomRtcApp) : AppEvent → RoomRtcApp
  | .fullServerError => { s with view := .fullServer }
  | .callIncoming peer offerSdp => { s with view := .callIncoming peer offerSdp }
  | .callEnded => (s.hangUp o fun s => { s with view := .callEnded }).resetAfterCall
  | .error e => (s.hangUp o fun s => { s with warningMsg := some (.text e), view := .callEnded }).resetAfterCall
  | .fatalError =>
    match stopMediaComponents o s.controller with
    | .ok _ controller | .error _ controller => { s with controller, view := .fatalError }
  | .callAccepted answerSdp username peerUsername =>
    match getInCall o answerSdp s.controller with
    | .ok _ controller => { s with controller, view := .call username peerUsername }
    | .error e controller => { s with controller, warningMsg := some (.error e), view := .callHub }
  | .callRejected => { s with view := .callHub }
  | .localStatsUpdate newStats =>
    { s with lastStats := some (match s.lastStats with
      | some current => { current with localSender := newStats.localSender, localReceiver := newStats.localReceiver }
      | none => newStats) }
  | .remoteStatsUpdate newStats =>
    { s with lastStats := some (match s.lastStats with
      | some current => { current with remoteSender := newStats.remoteSender, remoteReceiver :=
        newStats.remoteReceiver }
      | none => newStats) }
  | .remoteFileOffer id metadata => { s with fileOffers := Function.update s.fileOffers id (some metadata) }
  | .fileDownloadCompleted id => { s with fileDownloads := Function.update s.fileDownloads id none }

/-! ## Files -/

/-- The dialog for a file to save is answered, with a path or without one. -/
def manageSave (o : Outside) (s : RoomRtcApp) (dialog : SaveDialog) (chosen : Bool) : RoomRtcApp :=
  let s := { s with fileSaveRx := none }
  if chosen then
    let s := match acceptFile o s.controller with
      | .ok _ controller => { s with controller }
      | .error e controller => { s with controller, warningMsg := some (.failedToAcceptFile e) }
    { s with
      fileDownloads := Function.update s.fileDownloads dialog.id (some dialog.metadata)
      fileOffers := Function.update s.fileOffers dialog.id none }
  else s

def manageSend (o : Outside) (s : RoomRtcApp) : RoomRtcApp :=
  let s := { s with fileSendRx := false }
  match Control.sendFile o s.controller with
  | .ok _ controller => { s with controller }
  | .error e controller => { s with controller, warningMsg := some (.error e) }

/-- `saved` and `picked` are what the dialogs have answered by now, if they have: whether a path was chosen. -/
def manageFiles (o : Outside) (s : RoomRtcApp) (saved : Option Bool) (picked : Bool) : RoomRtcApp :=
  let s := match s.fileSaveRx, saved with
    | some dialog, some chosen => s.manageSave o dialog chosen
    | _, _ => s
  if s.fileSendRx && picked then s.manageSend o else s

/-! ## The screens -/

def clearAuthBuffers (s : RoomRtcApp) : RoomRtcApp := { s with usernameBuff := [], passwordBuff := [] }

/-- A method of the controller, with what follows its success; a failure is shown as a warning. -/
def attempt (s : RoomRtcApp) (method : Call Unit) (done : RoomRtcApp → RoomRtcApp) : RoomRtcApp :=
  match method s.controller with
  | .ok _ controller => done { s with controller }
  | .error e controller => { s with controller, warningMsg := some (.error e) }

def handleSignupAction (o : Outside) (s : RoomRtcApp) : RoomRtcApp :=
  (s.attempt (Control.signUp o s.usernameBuff s.passwordBuff) fun s => { s with view := .logIn }).clearAuthBuffers

def handleLoginAction (o : Outside) (s : RoomRtcApp) : RoomRtcApp :=
  (s.attempt (Control.logIn o s.usernameBuff s.passwordBuff) fun s => { s with view := .callHub }).clearAuthBuffers

def handleAcceptLogic (o : Outside) (s : RoomRtcApp) (peer : Str) (sdp : Sdp) : RoomRtcApp :=
  match acceptCall o peer sdp s.controller with
  | .ok _ controller =>
    match getUsername controller with
    | .ok username controller => { s with controller, view := .call username peer }
    | .error _ controller => { s with controller }
  | .error e controller => { s with controller, warningMsg := some (.error e), view := .callHub }

def handleDeclineLogic (o : Outside) (s : RoomRtcApp) (peer : Str) : RoomRtcApp :=
  { s.attempt (rejectCall o peer) id with view := .callHub, timeCallIncoming := none }

/-- Between its two readings of the clock the time goes on by `wait`. -/
def callTimeout (o : Outside) (wait : ℕ) (s : RoomRtcApp) (peer : Str) : RoomRtcApp × Bool :=
  let start := s.timeCallIncoming.getD s.now
  let s := { s with timeCallIncoming := some start, now := s.now + wait }
  if 15 ≤ (s.now - start) / 1000000000 then
    match rejectCall o peer s.controller with
    | .ok _ controller | .error _ controller =>
      ({ s with
          controller
          warningMsg := some (.text "Time to accept call expired".toList)
          timeCallIncoming := none
          view := .callHub }, true)
  else (s, false)

def showAuth (s : RoomRtcApp) (submit : RoomRtcApp → RoomRtcApp) : Click → RoomRtcApp
  | .typed username password => { s with usernameBuff := username, passwordBuff := password }
  | .submit => if !s.usernameBuff.isEmpty && !s.passwordBuff.isEmpty then submit s else s
  | .back => { s.clearAuthBuffers with view := .welcome }
  | _ => s

def showCallHub (o : Outside) (s : RoomRtcApp) : Click → RoomRtcApp
  | .logOut =>
    match Control.logOut o s.controller with
    | .ok _ controller => { s with controller, view := .welcome }
    | .error _ controller => { s with controller }
  | .call username =>
    -- only an available contact has the button
    if s.controller.usersStatus.lookup username = some .available then
      match Control.call o username s.controller with
      | .ok _ controller => { s with controller, view := .calling username }
      | .error _ controller => { s with controller }
    else s
  | _ => s

def showCallIncoming (o : Outside) (wait : ℕ) (s : RoomRtcApp) (peer : Str) (sdp : Sdp) (click : Option Click) :
    RoomRtcApp :=
  let (s, expired) := s.callTimeout o wait peer
  if expired then s
  else
    match click with
    | some .accept => s.handleAcceptLogic o peer sdp
    | some .decline => s.handleDeclineLogic o peer
    | _ => s

/-- The side panel with the offers and the toolbar below the pictures. -/
def showCall (o : Outside) (s : RoomRtcApp) : Click → RoomRtcApp
  | .acceptOffer id =>
    match s.fileOffers id with
    | some metadata => { s with fileSaveRx := some ⟨id, metadata⟩ }
    | none => s
  | .rejectOffer id =>
    match s.fileOffers id with
    | some _ =>
      let s := match rejectFile o s.controller with
        | .ok _ controller => { s with controller }
        | .error e controller => { s with controller, warningMsg := some (.failedToRejectFile e) }
      if s.fileSaveRx.isNone then { s with fileOffers := Function.update s.fileOffers id none } else s
    | none => s
  | .mute => { s with controller := toggleAudio s.controller, isMuted := !s.isMuted }
  | .endCall => s.hangUp o fun s => { s.resetAfterCall with view := .callHub }
  | .sendFile => { s with fileSendRx := true }
  | _ => s

/-- The screen as the frame finds it decides what can be clicked. -/
def renderCurrentView (o : Outside) (wait : ℕ) (s : RoomRtcApp) (click : Option Click) : RoomRtcApp :=
  match s.view, click with
  | .callIncoming peer sdp, click => s.showCallIncoming o wait peer sdp click
  | _, none => s
  | .welcome, some .signUpScreen => { s with view := .signUp }
  | .welcome, some .logInScreen => { s with view := .logIn }
  | .signUp, some click => s.showAuth (handleSignupAction o) click
  | .logIn, some click => s.showAuth (handleLoginAction o) click
  | .callHub, some click => s.showCallHub o click
  | .call _ _, some click => s.showCall o click
  | .callEnded, some .backToHub => { s with view := .callHub }
  | .error, some .ok => { s.resetAfterCall with view := .callHub }
  | _, some _ => s

def showWarningPopup (s : RoomRtcApp) (click : Option Click) : RoomRtcApp :=
  if click = some .closeWarning then { s with warningMsg := none } else s

/-! ## Frames and other threads -/

/-- What the threads of a call and of the file transfer send; a thread whose stream breaks sends its error. -/
inductive Report where
  | callEnded
  | error (text : Str)
  | localStatsUpdate (stats : CallStats)
  | remoteStatsUpdate (stats : CallStats)
  | remoteFileOffer (id : UInt32) (metadata : File.FileMetadata)
  | fileDownloadCompleted (id : UInt32)
deriving DecidableEq

def Report.event : Report → AppEvent
  | callEnded => .callEnded
  | error text => .error text
  | localStatsUpdate stats => .localStatsUpdate stats
  | remoteStatsUpdate stats => .remoteStatsUpdate stats
  | remoteFileOffer id metadata => .remoteFileOffer id metadata
  | fileDownloadCompleted id => .fileDownloadCompleted id

inductive AppMove where
  /-- The server's message comes to a thread that was started for this name. -/
  | told (username : Str) (message : ServerMessage Sdp)
  | reports (r : Report)
  /-- A thread of the call takes the flag down. -/
  | lowers
  | passes (time : ℕ)
  | handles (o : Outside)
  | drained
  | manages (o : Outside) (saved : Option Bool) (picked : Bool)
  | draws (o : Outside) (wait : ℕ) (click : Option Click)

def step (s : RoomRtcApp) : AppMove → Option (RoomRtcApp × Unit)
  | .told username message =>
    some ({ s with controller := (getResponseForServerMessage username message s.controller).1 }, ())
  | .reports r => some ({ s with controller.events := s.controller.events ++ [r.event] }, ())
  | .lowers => some ({ s with controller.transport.connected := false }, ())
  | .passes time => some ({ s with now := s.now + time }, ())
  | .handles o =>
    match s.part, s.controller.events with
    | .events, event :: events => some ({ s with controller.events := events }.handleEvent o event, ())
    | _, _ => none
  | .drained =>
    match s.part, s.controller.events with
    | .events, [] => some ({ s with part := .files }, ())
    | _, _ => none
  | .manages o saved picked =>
    match s.part with
    | .files => some ({ s.manageFiles o saved picked with part := .screen }, ())
    | _ => none
  | .draws o wait click =>
    match s.part with
    | .screen => some ({ (s.showWarningPopup click).renderCurrentView o wait click with part := .events }, ())
    | _ => none

end RoomRtcApp

def appMachine : Machine RoomRtcApp RoomRtcApp.AppMove Unit where
  step := RoomRtcApp.step

end RoomRtc.Ui
