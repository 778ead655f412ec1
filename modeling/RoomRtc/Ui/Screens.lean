import RoomRtc.Ui.Interface

/-! What the parts of a frame leave as it is: one lemma for each kind of step, whatever is proved of the
screens afterwards. -/
namespace RoomRtc.Ui
open Control Attempts
set_option autoImplicit false

def View.isCall : View → Bool
  | call _ _ => true
  | _ => false

def View.isIncoming : View → Bool
  | callIncoming _ _ => true
  | _ => false

namespace RoomRtcApp

def connected (s : RoomRtcApp) : Bool := s.controller.transport.connected

/-- An incoming call has been ringing for 15 seconds when the clock is read again after `wait`. -/
def Expires (wait : ℕ) (s : RoomRtcApp) : Prop := 15 ≤ (s.now + wait - s.timeCallIncoming.getD s.now) / 1000000000

/-- The flag of the call is as it was, and nothing but notices has come in. -/
structure Quiet (c c' : Controller) : Prop where
  connected : c'.transport.connected = c.transport.connected
  notified : Notified c c'

/-- The screen with all that is shown on it, the flag of the call and the time of its ringing. -/
structure SameShown (s s' : RoomRtcApp) : Prop where
  connected : s'.connected = s.connected
  view : s'.view = s.view
  timeCallIncoming : s'.timeCallIncoming = s.timeCallIncoming
  lastStats : s'.lastStats = s.lastStats

/-- The flag, the events that wait and the user are as they were. -/
structure Untouched (c c' : Controller) : Prop where
  connected : c'.transport.connected = c.transport.connected
  events : c'.events = c.events
  token : c'.token = c.token

/-- The same, and no event has come in. -/
structure SameScreen (s s' : RoomRtcApp) : Prop where
  controller : Untouched s.controller s'.controller
  view : s'.view = s.view
  timeCallIncoming : s'.timeCallIncoming = s.timeCallIncoming
  lastStats : s'.lastStats = s.lastStats

/-- The same but for the screen itself, which is not one of a call. -/
structure Aside (s s' : RoomRtcApp) : Prop where
  quiet : Quiet s.controller s'.controller
  timeCallIncoming : s'.timeCallIncoming = s.timeCallIncoming
  lastStats : s'.lastStats = s.lastStats
  noCall : s'.view.isCall = false
  noIncoming : s'.view.isIncoming = false

variable {o : Outside} {s s' s'' : RoomRtcApp}

theorem quiet_refl (c : Controller) : Quiet c c := ⟨rfl, notified_of_events rfl⟩

theorem Quiet.trans {c d e : Controller} (h : Quiet c d) (h' : Quiet d e) : Quiet c e :=
  ⟨h'.1.trans h.1, notified_trans c d e h.2 h'.2⟩

theorem keeps_quiet {method : Call Unit} (hkeeps : Keeps SameCall method) : Keeps Quiet method := fun c =>
  (hkeeps c).mono (fun _ _ h => ⟨congrArg (·.connected) h.transport, h.notified⟩)
    fun _ _ h => ⟨congrArg (·.connected) h.transport, h.notified⟩

theorem untouched_refl (c : Controller) : Untouched c c := ⟨rfl, rfl, rfl⟩

theorem withTransferer_untouched (succeeds : Bool) : Keeps Untouched (withTransferer succeeds) := by
  intro c
  rw [withTransferer, ends_bind, ends_get]
  exact keeps_ensure untouched_refl _ _ c

theorem sameScreen_refl (s : RoomRtcApp) : s.SameScreen s := ⟨untouched_refl _, rfl, rfl, rfl⟩

theorem SameScreen.trans (h : s.SameScreen s') (h' : s'.SameScreen s'') : s.SameScreen s'' := by
  obtain ⟨⟨hconnected, hevents, htoken⟩, hview, htimer, hstats⟩ := h
  obtain ⟨⟨hconnected', hevents', htoken'⟩, hview', htimer', hstats'⟩ := h'
  exact ⟨⟨hconnected'.trans hconnected, hevents'.trans hevents, htoken'.trans htoken⟩, hview'.trans hview,
    htimer'.trans htimer, hstats'.trans hstats⟩

theorem SameScreen.shown (h : s.SameScreen s') : s.SameShown s' := ⟨h.controller.connected, h.2, h.3, h.4⟩

theorem SameScreen.notified (h : s.SameScreen s') : Notified s.controller s'.controller :=
  notified_of_events h.controller.events

theorem Aside.connected (h : s.Aside s') : s'.connected = s.connected := h.quiet.connected

theorem new_starts {callSession : Session.CallSession} (h : new o callSession = some s) :
    Quiet (.new callSession) s.controller ∧ s.timeCallIncoming = none ∧ s.lastStats = none := by
  have hends := keeps_quiet (keeps_sameCall (initialHandshake_keeps (o := o))) (.new callSession)
  rw [new] at h
  cases hx : initialHandshake o (.new callSession) with
  | ok u c =>
    rw [hx] at h
    cases h
    exact ⟨hends.of_ok hx, rfl, rfl⟩
  | error e c =>
    rw [hx] at h
    cases h

/-! ## Files and warnings -/

theorem manageSave_same (o : Outside) (s : RoomRtcApp) (dialog : SaveDialog) (chosen : Bool) :
    s.SameScreen (s.manageSave o dialog chosen) := by
  have h := withTransferer_untouched o.fileAccepted s.controller
  rw [manageSave]
  split
  · dsimp only
    cases hx : acceptFile o s.controller with
    | ok u c => exact ⟨h.of_ok hx, rfl, rfl, rfl⟩
    | error e c => exact ⟨h.of_error hx, rfl, rfl, rfl⟩
  · exact ⟨untouched_refl _, rfl, rfl, rfl⟩

theorem manageSend_same (o : Outside) (s : RoomRtcApp) : s.SameScreen (s.manageSend o) := by
  have h := withTransferer_untouched o.fileSent s.controller
  unfold manageSend
  dsimp only
  cases hx : Control.sendFile o s.controller with
  | ok u c => exact ⟨h.of_ok hx, rfl, rfl, rfl⟩
  | error e c => exact ⟨h.of_error hx, rfl, rfl, rfl⟩

theorem manageFiles_same (o : Outside) (s : RoomRtcApp) (saved : Option Bool) (picked : Bool) :
    s.SameScreen (s.manageFiles o saved picked) := by
  unfold manageFiles
  dsimp only
  split
  · split
    · exact (manageSave_same o s _ _).trans (manageSend_same o _)
    · exact manageSave_same o s _ _
  · split
    · exact manageSend_same o s
    · exact sameScreen_refl s

theorem showWarningPopup_same (s : RoomRtcApp) (click : Option Click) : s.SameScreen (s.showWarningPopup click) := by
  rw [showWarningPopup]
  split
  · exact ⟨untouched_refl _, rfl, rfl, rfl⟩
  · exact sameScreen_refl s

theorem showWarningPopup_controller (s : RoomRtcApp) (click : Option Click) :
    (s.showWarningPopup click).controller = s.controller ∧ (s.showWarningPopup click).now = s.now := by
  rw [showWarningPopup]
  split
  · exact ⟨rfl, rfl⟩
  · exact ⟨rfl, rfl⟩

/-! ## Screens -/

/-- A call that nobody takes in time is rejected, and the hub comes back. -/
theorem callTimeout_expires {wait : ℕ} (peer : Str) (h : s.Expires wait) : (s.callTimeout o wait peer).2 = true ∧
    (s.callTimeout o wait peer).1.view = .callHub ∧
    Quiet s.controller (s.callTimeout o wait peer).1.controller ∧
    (s.callTimeout o wait peer).1.timeCallIncoming = none ∧
    (s.callTimeout o wait peer).1.lastStats = s.lastStats := by
  have hkeeps := keeps_quiet (keeps_sameCall (rejectCall_keeps (o := o) peer)) s.controller
  unfold Expires at h
  unfold callTimeout
  dsimp only
  rw [if_pos h]
  cases hx : rejectCall o peer s.controller with
  | ok u c => exact ⟨rfl, rfl, hkeeps.of_ok hx, rfl, rfl⟩
  | error e c => exact ⟨rfl, rfl, hkeeps.of_error hx, rfl, rfl⟩

theorem callTimeout_rings {wait : ℕ} (peer : Str) (h : ¬s.Expires wait) : s.callTimeout o wait peer =
    ({ s with timeCallIncoming := some (s.timeCallIncoming.getD s.now), now := s.now + wait }, false) := by
  unfold Expires at h
  unfold callTimeout
  dsimp only
  rw [if_neg h]

theorem attempt_aside {method : Call Unit} (hkeeps : Keeps SameCall method) {done : RoomRtcApp → RoomRtcApp}
    (hdone : ∀ s : RoomRtcApp, s.Aside (done s)) (hcall : s.view.isCall = false)
    (hincoming : s.view.isIncoming = false) :
    s.Aside (s.attempt method done) := by
  have h := keeps_quiet hkeeps s.controller
  rw [attempt]
  cases hx : method s.controller with
  | ok u c =>
    obtain ⟨hquiet, htimer, hstats, hnoCall, hnoIncoming⟩ := hdone { s with controller := c }
    exact ⟨(h.of_ok hx).trans hquiet, htimer, hstats, hnoCall, hnoIncoming⟩
  | error e c => exact ⟨h.of_error hx, rfl, rfl, hcall, hincoming⟩

/-- The screens without a call know nothing of one. -/
theorem renderCurrentView_aside (hcall : s.view.isCall = false) (hincoming : s.view.isIncoming = false) (wait : ℕ)
    (click : Option Click) : s.view = .error ∨ s.Aside (s.renderCurrentView o wait click) := by
  have hstays : s.Aside s := ⟨quiet_refl _, rfl, rfl, hcall, hincoming⟩
  have hauth : ∀ submit : RoomRtcApp → RoomRtcApp, s.Aside (submit s) →
    ∀ click, s.Aside (s.showAuth submit click) := by
    intro submit hsubmit click
    cases click with
    | submit =>
      rw [showAuth]
      split
      · exact hsubmit
      · exact hstays
    | back => exact ⟨quiet_refl _, rfl, rfl, rfl, rfl⟩
    | typed => exact ⟨quiet_refl _, rfl, rfl, hcall, hincoming⟩
    | _ => exact hstays
  unfold renderCurrentView
  split
  · next hview =>
    rw [hview] at hincoming
    cases hincoming
  · exact .inr hstays
  · exact .inr ⟨quiet_refl _, rfl, rfl, rfl, rfl⟩
  · exact .inr ⟨quiet_refl _, rfl, rfl, rfl, rfl⟩
  · refine .inr (hauth (handleSignupAction o) ?_ _)
    have h : s.Aside (s.attempt (Control.signUp o s.usernameBuff s.passwordBuff) fun s =>
      { s with view := .logIn }) := by
      apply attempt_aside (keeps_sameCall (signUp_keeps _ _)) _ hcall hincoming
      exact fun _ => ⟨quiet_refl _, rfl, rfl, rfl, rfl⟩
    exact ⟨h.1, h.2, h.3, h.4, h.5⟩
  · refine .inr (hauth (handleLoginAction o) ?_ _)
    have h : s.Aside (s.attempt (Control.logIn o s.usernameBuff s.passwordBuff) fun s =>
      { s with view := .callHub }) := by
      apply attempt_aside (logIn_keeps _ _) _ hcall hincoming
      exact fun _ => ⟨quiet_refl _, rfl, rfl, rfl, rfl⟩
    exact ⟨h.1, h.2, h.3, h.4, h.5⟩
  · next click _ =>
    refine .inr ?_
    cases click with
    | logOut =>
      have h := keeps_quiet (logOut_keeps (o := o)) s.controller
      rw [showCallHub]
      cases hx : Control.logOut o s.controller with
      | ok u c => exact ⟨h.of_ok hx, rfl, rfl, rfl, rfl⟩
      | error e c => exact ⟨h.of_error hx, rfl, rfl, hcall, hincoming⟩
    | call username =>
      have h := keeps_quiet (keeps_sameCall (call_keeps (o := o) username)) s.controller
      rw [showCallHub]
      split
      · cases hx : Control.call o username s.controller with
        | ok u c => exact ⟨h.of_ok hx, rfl, rfl, rfl, rfl⟩
        | error e c => exact ⟨h.of_error hx, rfl, rfl, hcall, hincoming⟩
      · exact hstays
    | _ => exact hstays
  · next hview =>
    rw [hview] at hcall
    cases hcall
  · exact .inr ⟨quiet_refl _, rfl, rfl, rfl, rfl⟩
  · next hview => exact .inl hview
  · exact .inr hstays

theorem renderCurrentView_error (h : s.view = .error) (wait : ℕ) (click : Option Click) :
    s.renderCurrentView o wait click = if click = some .ok then { s.resetAfterCall with view := .callHub } else s := by
  unfold renderCurrentView
  rw [h]
  split <;> simp_all

/-- All that a call's own screen does but ending the call. -/
theorem showCall_same {click : Click} (h : click ≠ .endCall) : s.SameScreen (s.showCall o click) := by
  cases click with
  | endCall => exact absurd rfl h
  | acceptOffer id =>
    unfold showCall
    dsimp only
    cases s.fileOffers id with
    | some metadata => exact ⟨untouched_refl _, rfl, rfl, rfl⟩
    | none => exact sameScreen_refl s
  | rejectOffer id =>
    have hkeeps := withTransferer_untouched o.fileRejected s.controller
    unfold showCall
    dsimp only
    cases s.fileOffers id with
    | none => exact sameScreen_refl s
    | some metadata =>
      cases hx : rejectFile o s.controller with
      | ok u c =>
        dsimp only
        split
        · exact ⟨hkeeps.of_ok hx, rfl, rfl, rfl⟩
        · exact ⟨hkeeps.of_ok hx, rfl, rfl, rfl⟩
      | error e c =>
        dsimp only
        split
        · exact ⟨hkeeps.of_error hx, rfl, rfl, rfl⟩
        · exact ⟨hkeeps.of_error hx, rfl, rfl, rfl⟩
  | mute => exact ⟨⟨rfl, rfl, rfl⟩, rfl, rfl, rfl⟩
  | sendFile => exact ⟨untouched_refl _, rfl, rfl, rfl⟩
  | _ => exact sameScreen_refl s

theorem showCall_endCall (o : Outside) (s : RoomRtcApp) :
    s.showCall o .endCall = s.hangUp o fun s => { s.resetAfterCall with view := .callHub } := rfl

theorem renderCurrentView_incoming {peer : Str} {sdp : Sdp} (h : s.view = .callIncoming peer sdp) (wait : ℕ)
    (click : Option Click) : s.renderCurrentView o wait click = s.showCallIncoming o wait peer sdp click := by
  unfold renderCurrentView
  rw [h]

theorem renderCurrentView_call (h : s.view.isCall = true) (wait : ℕ) (click : Click) :
    s.renderCurrentView o wait none = s ∧ s.renderCurrentView o wait (some click) = s.showCall o click := by
  obtain ⟨username, peer, hview⟩ : ∃ username peer, s.view = .call username peer := by
    cases hv : s.view with
    | call username peer => exact ⟨username, peer, rfl⟩
    | _ =>
      rw [hv] at h
      cases h
  unfold renderCurrentView
  rw [hview]
  exact ⟨rfl, rfl⟩

/-- The call on the screen is rejected: the hub comes back, and the next call rings anew. -/
structure Rejected (s s' : RoomRtcApp) : Prop where
  quiet : Quiet s.controller s'.controller
  view : s'.view = .callHub
  timeCallIncoming : s'.timeCallIncoming = none
  lastStats : s'.lastStats = s.lastStats

theorem Rejected.connected (h : s.Rejected s') : s'.connected = s.connected := h.quiet.connected

theorem showCallIncoming_rejects {wait : ℕ} {click : Option Click} (peer : Str) (sdp : Sdp)
    (h : s.Expires wait ∨ click = some .decline) : s.Rejected (s.showCallIncoming o wait peer sdp click) := by
  have hreject := fun c => keeps_quiet (keeps_sameCall (rejectCall_keeps (o := o) peer)) c
  rw [showCallIncoming]
  by_cases hexp : s.Expires wait
  · obtain ⟨htrue, hview, hquiet, htimer, hstats⟩ := callTimeout_expires (o := o) peer hexp
    dsimp only
    rw [htrue, if_pos rfl]
    exact ⟨hquiet, hview, htimer, hstats⟩
  · obtain rfl := h.resolve_left hexp
    rw [callTimeout_rings peer hexp]
    dsimp only
    rw [if_neg Bool.false_ne_true, handleDeclineLogic, attempt]
    cases hx : rejectCall o peer s.controller with
    | ok u c => exact ⟨(hreject s.controller).of_ok hx, rfl, rfl, rfl⟩
    | error e c => exact ⟨(hreject s.controller).of_error hx, rfl, rfl, rfl⟩

theorem showCallIncoming_accepts {wait : ℕ} (peer : Str) (sdp : Sdp) (h : ¬s.Expires wait) :
    s.showCallIncoming o wait peer sdp (some .accept) =
      ({ s with timeCallIncoming := some (s.timeCallIncoming.getD s.now), now :=
        s.now + wait } : RoomRtcApp).handleAcceptLogic
        o peer sdp := by
  rw [showCallIncoming, callTimeout_rings peer h]
  rfl

theorem showCallIncoming_rings {wait : ℕ} {click : Option Click} (peer : Str) (sdp : Sdp) (h : ¬s.Expires wait)
    (haccept : click ≠ some .accept) (hdecline : click ≠ some .decline) : s.showCallIncoming o wait peer sdp click =
      { s with timeCallIncoming := some (s.timeCallIncoming.getD s.now), now := s.now + wait } := by
  rw [showCallIncoming, callTimeout_rings peer h]
  dsimp only
  rw [if_neg Bool.false_ne_true]
  split
  · exact absurd rfl haccept
  · exact absurd rfl hdecline
  · rfl

theorem exists_incoming (h : s.view.isIncoming = true) : ∃ peer sdp, s.view = .callIncoming peer sdp := by
  cases hv : s.view with
  | callIncoming peer sdp => exact ⟨peer, sdp, rfl⟩
  | _ =>
    rw [hv] at h
    cases h

/-! ## Steps -/

/-- The steps that show nothing on the screen and leave the flag of the call. -/
def AppMove.background : AppMove → Bool
  | told _ _ | reports _ | passes _ | drained | manages _ _ _ => true
  | _ => false

variable {move : AppMove} {u : Unit}

theorem step_background (h : move.background = true) (hstep : s.step move = some (s', u)) : s.SameShown s' := by
  cases move with
  | lowers | handles | draws => cases h
  | told username message =>
    cases hstep
    exact ⟨by cases message <;> rfl, rfl, rfl, rfl⟩
  | reports r | passes time =>
    cases hstep
    exact ⟨rfl, rfl, rfl, rfl⟩
  | drained =>
    rw [step] at hstep
    split at hstep
    · cases hstep
      exact ⟨rfl, rfl, rfl, rfl⟩
    · cases hstep
  | manages o saved picked =>
    rw [step] at hstep
    split at hstep
    · cases hstep
      obtain ⟨h₁, h₂, h₃, h₄⟩ := (manageFiles_same o s saved picked).shown
      exact ⟨h₁, h₂, h₃, h₄⟩
    · cases hstep

theorem step_handles (hstep : s.step (.handles o) = some (s', u)) : ∃ event events, s.part = .events ∧
    s.controller.events = event :: events ∧ s' = handleEvent o { s with controller.events := events } event := by
  rw [step] at hstep
  split at hstep
  · next event events hpart hevents =>
    cases hstep
    exact ⟨event, events, hpart, hevents, rfl⟩
  · cases hstep

theorem step_draws {wait : ℕ} {click : Option Click} (hstep : s.step (.draws o wait click) = some (s', u)) :
    s.part = .screen ∧ s' = { (s.showWarningPopup click).renderCurrentView o wait click with part := .events } := by
  rw [step] at hstep
  split at hstep
  · next hpart =>
    cases hstep
    exact ⟨hpart, rfl⟩
  · cases hstep

end RoomRtcApp
end RoomRtc.Ui
