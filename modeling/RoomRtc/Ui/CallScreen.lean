import RoomRtc.Ui.Screens

/-! A call that is connected and the screen: as long as the flag of the call is up, its threads send what
camera and microphone take. When the user sees the call all that time, and how a call ends up behind
another screen, from where no click brings it back or ends it. -/
namespace RoomRtc.Ui
open Control Attempts
set_option autoImplicit false

/-- The call ends with the event, or another one begins. -/
def endsOrBegins : AppEvent → Bool
  | .callEnded | .error _ | .fatalError | .callAccepted _ _ _ => true
  | _ => false

namespace RoomRtcApp

/-- Who is connected sees the call. -/
def OnScreen (s : RoomRtcApp) : Prop := s.connected = true → s.view.isCall = true

/-- The method fails with the flag up. -/
def FailsConnected (method : Call Unit) (c : Controller) : Prop :=
  ∃ e c', method c = .error e c' ∧ c'.transport.connected = true

/-- The event takes a connected call from the screen, or a call is not joined completely. -/
def EventHides (o : Outside) (s : RoomRtcApp) : AppEvent → Prop
  | .fullServerError | .callIncoming _ _ | .callRejected => s.connected = true
  | .callEnded | .error _ => s.connected = true ∧ ¬Granted o s.controller
  | .callAccepted answerSdp _ _ => FailsConnected (getInCall o answerSdp) s.controller
  | _ => False

def ClickHides (o : Outside) (wait : ℕ) (s : RoomRtcApp) : Option Click → Prop
  | some .endCall => s.view.isCall = true ∧ s.connected = true ∧ ¬Granted o s.controller
  | some .accept => ∃ peer sdp, s.view = .callIncoming peer sdp ∧ ¬s.Expires wait ∧
    FailsConnected (acceptCall o peer sdp) s.controller
  | _ => False

def Hides (s : RoomRtcApp) : AppMove → Prop
  | .handles o => s.part = .events ∧ ∃ event events, s.controller.events = event :: events ∧
    EventHides o { s with controller.events := events } event
  | .draws o wait click => s.part = .screen ∧ ClickHides o wait s click
  | _ => False

/-! ## Hanging up and failing -/

variable {o : Outside} {s : RoomRtcApp}

theorem onScreen_of_unconnected (h : s.connected = false) :
    s.OnScreen := fun hup => absurd (hup.symm.trans h) (by decide)

theorem not_onScreen_iff (h : s.view.isCall = false) : s.OnScreen ↔ s.connected = false := by
  rw [OnScreen, h, ← Bool.not_eq_true]
  simp

/-- Hanging up leaves a call connected just where it is refused, and then with the fatal error for a screen. -/
theorem hangUp_connected (o : Outside) (s : RoomRtcApp) {hungUp : RoomRtcApp → RoomRtcApp}
    (hkeeps : ∀ s, (hungUp s).connected = s.connected) :
    (Granted o s.controller → (s.hangUp o hungUp).connected = false) ∧
      (¬Granted o s.controller → (s.hangUp o hungUp).connected = s.connected ∧
        (s.hangUp o hungUp).view = .fatalError) := by
  have h := hangUp_ends o s.controller
  rw [hangUp]
  cases hx : Control.hangUp o s.controller with
  | ok u c =>
    obtain ⟨hgranted, hstopped, _⟩ := h.of_ok hx
    exact ⟨fun _ => (hkeeps _).trans hstopped.connected, fun hno => absurd hgranted hno⟩
  | error e c =>
    obtain ⟨hgranted, hstopped⟩ | ⟨hrefused, hevents⟩ := h.of_error hx
    · exact ⟨fun _ => hstopped.connected, fun hno => absurd hgranted hno⟩
    · exact ⟨fun hyes => absurd hyes hrefused,
        fun _ => ⟨congrArg (·.connected) hevents.sameCall.transport, rfl⟩⟩

theorem hangUp_onScreen (o : Outside) (s : RoomRtcApp) {hungUp : RoomRtcApp → RoomRtcApp}
    (hkeeps : ∀ s, (hungUp s).connected = s.connected) :
    (s.hangUp o hungUp).OnScreen ↔ ¬(s.connected = true ∧ ¬Granted o s.controller) := by
  obtain ⟨hyes, hno⟩ := hangUp_connected o s hkeeps
  by_cases hg : Granted o s.controller
  · exact iff_of_true (onScreen_of_unconnected (hyes hg)) fun h => h.2 hg
  · obtain ⟨hsame, hview⟩ := hno hg
    rw [not_onScreen_iff (by rw [hview]; rfl), hsame]
    simp [hg]

/-- What follows a method that has failed is the hub. -/
theorem failed_onScreen {method : Call Unit} {e : ControllerError} {c' : Controller}
    (hx : method s.controller = .error e c') (w : Option Warning) :
    ({ s with controller := c', warningMsg := w, view := .callHub } : RoomRtcApp).OnScreen ↔
      ¬FailsConnected method s.controller := by
  rw [not_onScreen_iff rfl, ← Bool.not_eq_true]
  refine not_congr ⟨fun hup => ⟨e, c', hx, hup⟩, ?_⟩
  rintro ⟨e₁, c₁, h₁, hup⟩
  cases hx.symm.trans h₁
  exact hup

theorem not_failsConnected {method : Call Unit} {c c' : Controller} (hx : method c = .ok () c') :
    ¬FailsConnected method c := by
  rintro ⟨e, c₁, h₁, _⟩
  cases hx.symm.trans h₁

/-! ## One step -/

theorem handleEvent_onScreen (hs : s.OnScreen) (event : AppEvent) :
    (s.handleEvent o event).OnScreen ↔ ¬EventHides o s event := by
  cases event with
  | fullServerError | callIncoming | callRejected =>
    refine (not_onScreen_iff rfl).trans ?_
    rw [EventHides, Bool.not_eq_true]
    rfl
  | callEnded => exact hangUp_onScreen o s fun _ => rfl
  | error e => exact hangUp_onScreen o s fun _ => rfl
  | fatalError =>
    refine iff_of_true (onScreen_of_unconnected ?_) id
    have h := stopMediaComponents_ends o s.controller
    rw [handleEvent]
    cases hx : stopMediaComponents o s.controller with
    | ok u c => exact (h.of_ok hx).connected
    | error e c => exact (h.of_error hx).connected
  | callAccepted answerSdp username peer =>
    rw [handleEvent]
    cases hx : getInCall o answerSdp s.controller with
    | ok u c => exact iff_of_true (fun _ => rfl) (not_failsConnected hx)
    | error e c => exact failed_onScreen hx _
  | localStatsUpdate | remoteStatsUpdate | remoteFileOffer | fileDownloadCompleted => exact iff_of_true hs id

/-- The call is as connected as before, and its screen is not shown. -/
def Elsewhere (s s' : RoomRtcApp) : Prop := s'.connected = s.connected ∧ s'.view.isCall = false

/-- Only the screen of a call and an acceptance bear on a call. -/
theorem renderCurrentView_elsewhere (hs : s.view.isCall = false) (wait : ℕ) (click : Option Click)
    (haccept : s.view.isIncoming = true → click ≠ some .accept) :
    s.Elsewhere (s.renderCurrentView o wait click) := by
  by_cases hincoming : s.view.isIncoming = true
  · obtain ⟨peer, sdp, hview⟩ := exists_incoming hincoming
    rw [renderCurrentView_incoming hview]
    by_cases hrejects : s.Expires wait ∨ click = some .decline
    · have h := showCallIncoming_rejects (o := o) peer sdp hrejects
      exact ⟨h.connected, by rw [h.view]; rfl⟩
    · obtain ⟨hexp, hdecline⟩ := not_or.mp hrejects
      rw [showCallIncoming_rings peer sdp hexp (haccept hincoming) hdecline]
      exact ⟨rfl, hs⟩
  · rw [Bool.not_eq_true] at hincoming
    obtain herror | haside := renderCurrentView_aside (o := o) hs hincoming wait click
    · rw [renderCurrentView_error herror]
      split
      · exact ⟨rfl, rfl⟩
      · exact ⟨rfl, hs⟩
    · exact ⟨haside.connected, haside.noCall⟩

theorem showCall_onScreen (hview : s.view.isCall = true) (click : Click) :
    (s.showCall o click).OnScreen ↔ ¬(click = .endCall ∧ s.connected = true ∧ ¬Granted o s.controller) := by
  by_cases hend : click = .endCall
  · subst hend
    rw [showCall_endCall, hangUp_onScreen o s]
    · simp
    · exact fun _ => rfl
  · have h := showCall_same (o := o) (s := s) hend
    exact iff_of_true (fun _ => by rw [h.view, hview]) fun hboth => hend hboth.1

theorem handleAcceptLogic_onScreen (peer : Str) (sdp : Sdp) :
    (s.handleAcceptLogic o peer sdp).OnScreen ↔ ¬FailsConnected (acceptCall o peer sdp) s.controller := by
  have h := acceptCall_ends o peer sdp s.controller
  rw [handleAcceptLogic]
  cases hx : acceptCall o peer sdp s.controller with
  | ok u c =>
    obtain ⟨_, ⟨token, htoken⟩, _⟩ := h.of_ok hx
    have hname : getUsername c = .ok token c := by
      have hends := getToken_ends c
      cases hy : getToken c with
      | ok token' c' =>
        obtain ⟨rfl, heq⟩ := hends.of_ok hy
        cases htoken.symm.trans heq
        exact hy
      | error e c' =>
        have hnone := (hends.of_error hy).2
        rw [htoken] at hnone
        cases hnone
    dsimp only
    rw [hname]
    exact iff_of_true (fun _ => rfl) (not_failsConnected hx)
  | error e c => exact failed_onScreen hx _

theorem renderCurrentView_onScreen (hs : s.OnScreen) (wait : ℕ) (click : Option Click) :
    (s.renderCurrentView o wait click).OnScreen ↔ ¬ClickHides o wait s click := by
  by_cases hcall : s.view.isCall = true
  · have hnot : ∀ peer sdp, s.view ≠ .callIncoming peer sdp := fun peer sdp h => by
      rw [h] at hcall
      cases hcall
    cases click with
    | none =>
      rw [(renderCurrentView_call hcall wait .ok).1]
      exact iff_of_true hs id
    | some click =>
      rw [(renderCurrentView_call hcall wait click).2, showCall_onScreen hcall]
      cases click with
      | endCall => simp [ClickHides, hcall]
      | accept => simp [ClickHides, hnot]
      | _ => simp [ClickHides]
  · rw [Bool.not_eq_true] at hcall
    have hdown : s.connected = false := (not_onScreen_iff hcall).mp hs
    by_cases haccept : s.view.isIncoming = true ∧ click = some .accept
    · obtain ⟨hincoming, rfl⟩ := haccept
      obtain ⟨peer, sdp, hview⟩ := exists_incoming hincoming
      rw [renderCurrentView_incoming hview]
      by_cases hexp : s.Expires wait
      · have h : s.Rejected (s.showCallIncoming o wait peer sdp (some .accept)) :=
          showCallIncoming_rejects peer sdp (.inl hexp)
        refine iff_of_true (onScreen_of_unconnected (h.connected.trans hdown)) ?_
        rintro ⟨_, _, _, hlate, _⟩
        exact hlate hexp
      · rw [showCallIncoming_accepts peer sdp hexp, handleAcceptLogic_onScreen]
        simp [ClickHides, hview, hexp]
    · have h := renderCurrentView_elsewhere (o := o) hcall wait click fun hincoming hclick =>
        haccept ⟨hincoming, hclick⟩
      refine iff_of_true (onScreen_of_unconnected (h.1.trans hdown)) ?_
      unfold ClickHides
      split
      · simp [hcall]
      · rintro ⟨peer, sdp, hview, _⟩
        exact haccept ⟨by rw [hview]; rfl, rfl⟩
      · exact id

/-! ## Runs -/

variable {s' : RoomRtcApp} {u : Unit}

theorem SameShown.onScreen (h : s.SameShown s') (hs : s.OnScreen) : s'.OnScreen :=
  fun hup => (congrArg View.isCall h.view).trans (hs (h.connected.symm.trans hup))

theorem step_onScreen (hs : s.OnScreen) (move : AppMove) (hstep : s.step move = some (s', u)) :
    s'.OnScreen ↔ ¬s.Hides move := by
  by_cases hback : move.background = true
  · refine iff_of_true ((step_background hback hstep).onScreen hs) ?_
    cases move with
    | lowers | handles | draws => cases hback
    | _ => exact id
  · cases move with
    | told | reports | passes | drained | manages => exact absurd rfl hback
    | lowers =>
      cases hstep
      exact iff_of_true (onScreen_of_unconnected rfl) id
    | handles o =>
      obtain ⟨event, events, hpart, hevents, rfl⟩ := step_handles hstep
      have h := handleEvent_onScreen (o := o) (s := { s with controller.events := events }) hs event
      rw [h, Hides, hpart, hevents]
      simp
    | draws o wait click =>
      obtain ⟨hpart, rfl⟩ := step_draws hstep
      have hwarned : ClickHides o wait (s.showWarningPopup click) click ↔ ClickHides o wait s click := by
        rw [showWarningPopup]
        split
        · exact Iff.rfl
        · exact Iff.rfl
      refine (renderCurrentView_onScreen ((showWarningPopup_same s click).shown.onScreen hs) wait click).trans ?_
      rw [hwarned, Hides, hpart]
      simp

/-- A connected call is behind another screen. -/
def Hidden (s : RoomRtcApp) : Prop := s.connected = true ∧ s.view.isCall = false

/-- An event that ends the call or begins another one, a thread that gives the call up, or an acceptance. -/
def WayOut (s : RoomRtcApp) : AppMove → Prop
  | .lowers => True
  | .handles _ => ∃ event events, s.controller.events = event :: events ∧ endsOrBegins event = true
  | .draws _ _ click => click = some .accept ∧ ∃ peer sdp, s.view = .callIncoming peer sdp
  | _ => False

theorem SameShown.hidden (h : s.SameShown s') (hs : s.Hidden) : s'.Hidden :=
  ⟨h.connected.trans hs.1, (congrArg View.isCall h.view).trans hs.2⟩

theorem step_hidden (hs : s.Hidden) {move : AppMove} (hno : ¬s.WayOut move) (hstep : s.step move = some (s', u)) :
    s'.Hidden := by
  by_cases hback : move.background = true
  · exact (step_background hback hstep).hidden hs
  · cases move with
    | told | reports | passes | drained | manages => exact absurd rfl hback
    | lowers => exact absurd trivial hno
    | handles o =>
      obtain ⟨event, events, hpart, hevents, rfl⟩ := step_handles hstep
      have hother : endsOrBegins event ≠ true := fun h => hno ⟨event, events, hevents, h⟩
      cases event with
      | callEnded | error | fatalError | callAccepted => exact absurd rfl hother
      | fullServerError | callIncoming | callRejected => exact ⟨hs.1, rfl⟩
      | localStatsUpdate | remoteStatsUpdate | remoteFileOffer | fileDownloadCompleted => exact hs
    | draws o wait click =>
      obtain ⟨hpart, rfl⟩ := step_draws hstep
      have hwarned := showWarningPopup_same s click
      obtain ⟨hup, hcall⟩ := hwarned.shown.hidden hs
      obtain ⟨hsame, hview⟩ := renderCurrentView_elsewhere (o := o) hcall wait click fun hincoming hclick =>
        hno ⟨hclick, exists_incoming (by rw [← hwarned.view, hincoming])⟩
      exact ⟨hsame.trans hup, hview⟩

/-- The program as it starts up. -/
theorem new_onScreen {o : Outside} {callSession : Session.CallSession} (h : new o callSession = some s) : s.OnScreen :=
  onScreen_of_unconnected (new_starts h).1.connected

end RoomRtcApp
open RoomRtcApp

/-- **When the user sees every call that is connected.** Throughout a run, just when no step takes one from
the screen: an event for another screen, a hang-up that the server refuses or does not answer, or
joining that fails after the flag is up. From such a state no click leads out: the call stays
connected and hidden until one of its own threads, an event of its end or another call ends that. -/
theorem call_on_screen_iff {o : Outside} {callSession : Session.CallSession} {s : RoomRtcApp}
    (hnew : RoomRtcApp.new o callSession = some s) (moves : List AppMove) :
    (appMachine.Throughout (fun _ _ s' => s'.OnScreen) s moves ↔
        appMachine.Guarded (fun s move => ¬s.Hides move) s moves) ∧
      ∀ t t' later os, t.Hidden → appMachine.Guarded (fun s move => ¬s.WayOut move) t later →
        appMachine.run t later = some (t', os) → t'.Hidden := by
  constructor
  · refine appMachine.throughout_iff_guarded OnScreen (fun s move s' u hs hstep => step_onScreen hs move hstep)
      (fun s move s' u hs hg hstep => (step_onScreen hs move hstep).mpr hg) ?_ (new_onScreen hnew) moves
    intro s move hs hstep hhides
    cases move with
    | handles o =>
      obtain ⟨hpart, event, events, hevents, _⟩ := hhides
      simp [appMachine, step, hpart, hevents] at hstep
    | draws o wait click =>
      obtain ⟨hpart, _⟩ := hhides
      simp [appMachine, step, hpart] at hstep
    | _ => exact hhides
  · intro t t' later os ht hguarded hrun
    exact appMachine.run_invariant Hidden (fun s move s' u hs hno hstep => step_hidden hs hno hstep) ht hguarded hrun

/-! ## A call behind the hub -/

def lanSession : Session.CallSession where
  sdp := .new [] .default
  iceAgent := ⟨[Session.lanHost "192.168.1.5".toList 40000], [], [], none⟩
  remoteFingerprint := none
  remoteSetupRole := none
  localSetupRole := .actPass

def lanAnswer : Sdp :=
  .new [{ Session.MediaDescription.new "video".toList 50000 "RTP/AVP".toList {96} with
    attributes := [.fingerprint ⟨Session.sha256, [0xAB]⟩, .setup .active,
      .candidate (Session.lanHost "192.168.1.9".toList 50000)] }] .default

/-- The peer answers the checks, everything starts, and the server grants what it is asked. -/
def lanOutside : Outside where
  server
    | .hello => .response .welcome
    | .callHangup _ => .response .callHangUpOk
    | _ => .unreadable
  pushStream := true
  timeoutSet := true
  network _ := [.received (.v4 ⟨192, 168, 1, 9⟩) Session.pong]
  transport _ _ _ := .started
  transferer _ _ _ := true
  media := .started
  timeoutsCleared := true
  goodbyeSent := true
  bound := true
  cloned := true
  session := .ok lanSession
  fileSent := true
  fileAccepted := true
  fileRejected := true

/-- The call is accepted, and then a rejection comes in. -/
def acceptedThenRejected : List RoomRtcApp.AppMove :=
  [.told "alice".toList (.callAccepted "bob".toList lanAnswer), .handles lanOutside, .told "alice".toList .callRejected]

/-- The user tries to end it. -/
def endCallBehind : List RoomRtcApp.AppMove :=
  [.drained, .manages lanOutside none false, .draws lanOutside 0 (some .endCall)]

theorem rejected_call_hidden : ∃ s t u os ps, RoomRtcApp.new lanOutside lanSession = some s ∧
    appMachine.run s (acceptedThenRejected ++ [.handles lanOutside]) = some (t, os) ∧
    ¬appMachine.Throughout (fun _ _ s' => s'.OnScreen) s (acceptedThenRejected ++ [.handles lanOutside]) ∧
    appMachine.run t endCallBehind = some (u, ps) ∧ u.Hidden := by
  have hfacts : ((RoomRtcApp.new lanOutside lanSession).bind fun s =>
      (appMachine.run s acceptedThenRejected).bind fun r =>
      (appMachine.run r.1 [.handles lanOutside]).bind fun t => (appMachine.run t.1 endCallBehind).map fun _ =>
        (r.1.part, r.1.controller.events, r.1.connected, t.1.connected, t.1.view)) =
          some (.events, [.callRejected], true, true, .callHub) := by decide +kernel
  obtain ⟨s, hnew, hfacts⟩ := Option.bind_eq_some_iff.mp hfacts
  obtain ⟨⟨r, os⟩, hr, hfacts⟩ := Option.bind_eq_some_iff.mp hfacts
  obtain ⟨⟨t, os'⟩, ht, hfacts⟩ := Option.bind_eq_some_iff.mp hfacts
  obtain ⟨⟨u, ps⟩, hu, hfacts⟩ := Option.map_eq_some_iff.mp hfacts
  simp only [Prod.mk.injEq] at hfacts
  obtain ⟨hpart, hevents, hup, htup, htview⟩ := hfacts
  obtain ⟨hiff, hstays⟩ := call_on_screen_iff hnew (acceptedThenRejected ++ [.handles lanOutside])
  refine ⟨s, t, u, _, ps, hnew, appMachine.run_append hr ht, fun hall => ?_, hu, ?_⟩
  · have hlast := ((appMachine.guarded_concat hr).mp (hiff.mp hall)).2
    exact hlast ⟨hpart, .callRejected, [], hevents, hup⟩
  · refine hstays t u endCallBehind ps ⟨htup, by rw [htview]; rfl⟩ ?_ hu
    refine ⟨id, fun _ _ _ => ⟨id, fun _ _ _ => ⟨?_, fun _ _ _ => trivial⟩⟩⟩
    rintro ⟨hclick, _⟩
    cases hclick

end RoomRtc.Ui
