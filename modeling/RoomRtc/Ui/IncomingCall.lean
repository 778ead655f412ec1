import RoomRtc.Foundations.Trace
import RoomRtc.Ui.CallScreen

/-! An incoming call rings for 15 seconds. The time is taken when the first frame is drawn and forgotten
when the call is declined or expires, when a call ends and nowhere else: a call that could not be
joined, or that another event took from the screen, leaves its time to the next one. -/
namespace RoomRtc.Ui
open Control
set_option autoImplicit false

/-- The event ends the call, whether or not the server has it so. -/
def endsCall : AppEvent → Bool
  | .callEnded | .error _ => true
  | _ => false

/-- The event leaves the screen as it is. -/
def isQuiet : AppEvent → Bool
  | .localStatsUpdate _ | .remoteStatsUpdate _ | .remoteFileOffer _ _ | .fileDownloadCompleted _ => true
  | _ => false

namespace RoomRtcApp

/-- The first frame of a call is drawn at `start`. -/
def BeginsToRing (s : RoomRtcApp) : AppMove → ℕ → Prop
  | .draws _ wait click, start => s.view.isIncoming = true ∧ s.timeCallIncoming = none ∧ s.now = start ∧
    ¬s.Expires wait ∧ click ≠ some .decline
  | _, _ => False

/-- The time of the ringing is forgotten. -/
def StopsRinging (s : RoomRtcApp) : AppMove → Prop
  | .handles _ => ∃ event events, s.controller.events = event :: events ∧ endsCall event = true
  | .draws o wait click => s.view.isIncoming = true ∧ (s.Expires wait ∨ click = some .decline) ∨
    s.view.isCall = true ∧ click = some .endCall ∧ (∃ c, Control.hangUp o s.controller = .ok () c) ∨
    s.view = .error ∧ click = some .ok
  | _ => False

/-- Nobody answers, and no event brings another screen. -/
def Unanswered (s : RoomRtcApp) : AppMove → Prop
  | .handles _ => ∀ event events, s.controller.events = event :: events → isQuiet event = true
  | .draws _ _ click => click ≠ some .accept ∧ click ≠ some .decline
  | _ => True

/-- The clock is read within 15 seconds. -/
def InTime (start : ℕ) (s : RoomRtcApp) : AppMove → Prop
  | .draws _ wait _ => s.now + wait < start + 15 * 1000000000
  | _ => True

variable {o : Outside} {s s' : RoomRtcApp} {u : Unit}

theorem expires_iff {start : ℕ} (h : s.timeCallIncoming = some start) (wait : ℕ) :
    s.Expires wait ↔ start + 15 * 1000000000 ≤ s.now + wait := by
  rw [Expires, h, Option.getD_some]
  omega

/-! ## The time of the ringing -/

theorem handleEvent_timer (o : Outside) (s : RoomRtcApp) (event : AppEvent) :
    (s.handleEvent o event).timeCallIncoming = if endsCall event then none else s.timeCallIncoming := by
  cases event with
  | fatalError =>
    rw [handleEvent]
    cases stopMediaComponents o s.controller with
    | ok u c => rfl
    | error e c => rfl
  | callAccepted answerSdp username peer =>
    rw [handleEvent]
    cases getInCall o answerSdp s.controller with
    | ok u c => rfl
    | error e c => rfl
  | _ => rfl

theorem handleAcceptLogic_timer (o : Outside) (s : RoomRtcApp) (peer : Str) (sdp : Sdp) :
    (s.handleAcceptLogic o peer sdp).timeCallIncoming = s.timeCallIncoming := by
  rw [handleAcceptLogic]
  cases acceptCall o peer sdp s.controller with
  | ok u c =>
    dsimp only
    cases getUsername c with
    | ok name c' => rfl
    | error e c' => rfl
  | error e c => rfl

theorem showCallIncoming_timer {wait : ℕ} {click : Option Click} (peer : Str) (sdp : Sdp) (hring : ¬s.Expires wait)
    (hdecline : click ≠ some .decline) : (s.showCallIncoming o wait peer sdp click).timeCallIncoming =
      some (s.timeCallIncoming.getD s.now) := by
  by_cases haccept : click = some .accept
  · rw [haccept, showCallIncoming_accepts peer sdp hring, handleAcceptLogic_timer]
  · rw [showCallIncoming_rings peer sdp hring haccept hdecline]

theorem endCall_timer (o : Outside) (s : RoomRtcApp) :
    ((∃ c, Control.hangUp o s.controller = .ok () c) → (s.showCall o .endCall).timeCallIncoming = none) ∧
      ((¬∃ c, Control.hangUp o s.controller = .ok () c) →
        (s.showCall o .endCall).timeCallIncoming = s.timeCallIncoming) := by
  rw [showCall_endCall, hangUp]
  cases hx : Control.hangUp o s.controller with
  | ok u c => exact ⟨fun _ => rfl, fun hno => absurd ⟨c, rfl⟩ hno⟩
  | error e c =>
    refine ⟨?_, fun _ => rfl⟩
    rintro ⟨c', h⟩
    cases h

theorem draws_timer (s : RoomRtcApp) (wait : ℕ) (click : Option Click) (a : ℕ) :
    (s.renderCurrentView o wait click).timeCallIncoming = some a ↔
      s.BeginsToRing (.draws o wait click) a ∨
      s.timeCallIncoming = some a ∧ ¬s.StopsRinging (.draws o wait click) := by
  have hstays : ∀ s' : RoomRtcApp, s'.timeCallIncoming = s.timeCallIncoming → s.view.isIncoming = false →
      ¬s.StopsRinging (.draws o wait click) → (s'.timeCallIncoming = some a ↔
        s.BeginsToRing (.draws o wait click) a ∨
          s.timeCallIncoming = some a ∧ ¬s.StopsRinging (.draws o wait click)) := by
    intro s' hsame hincoming hkeeps
    rw [hsame, BeginsToRing, hincoming]
    simp [hkeeps]
  have hstops : ∀ s' : RoomRtcApp, s'.timeCallIncoming = none → s.StopsRinging (.draws o wait click) →
      ¬s.BeginsToRing (.draws o wait click) a → (s'.timeCallIncoming = some a ↔
        s.BeginsToRing (.draws o wait click) a ∨
          s.timeCallIncoming = some a ∧ ¬s.StopsRinging (.draws o wait click)) := by
    intro s' hnone hforgets hno
    simp [hnone, hforgets, hno]
  by_cases hincoming : s.view.isIncoming = true
  · have hcall : s.view.isCall = false ∧ s.view ≠ .error := by
      obtain ⟨peer, sdp, hview⟩ := exists_incoming hincoming
      rw [hview]
      exact ⟨rfl, nofun⟩
    obtain ⟨peer, sdp, hview⟩ := exists_incoming hincoming
    rw [renderCurrentView_incoming hview]
    by_cases hrejects : s.Expires wait ∨ click = some .decline
    · apply hstops _ (showCallIncoming_rejects peer sdp hrejects).timeCallIncoming (.inl ⟨hincoming, hrejects⟩)
      rintro ⟨_, _, _, hring, hdecline⟩
      exact hrejects.elim hring hdecline
    · obtain ⟨hring, hdecline⟩ := not_or.mp hrejects
      rw [showCallIncoming_timer peer sdp hring hdecline]
      have hkeeps : ¬s.StopsRinging (.draws o wait click) := by
        rintro (⟨_, hr⟩ | ⟨hc, _⟩ | ⟨he, _⟩)
        · exact hrejects hr
        · cases hcall.1.symm.trans hc
        · exact hcall.2 he
      rw [BeginsToRing]
      cases htimer : s.timeCallIncoming with
      | none => simp [hincoming, hring, hdecline]
      | some start => simp [hkeeps]
  · rw [Bool.not_eq_true] at hincoming
    have hbegins : ¬s.BeginsToRing (.draws o wait click) a := by
      rintro ⟨hyes, _⟩
      cases hincoming.symm.trans hyes
    by_cases hcall : s.view.isCall = true
    · have herror : s.view ≠ .error := fun h => by
        rw [h] at hcall
        cases hcall
      have hkeeps : (click = some .endCall → ¬∃ c, Control.hangUp o s.controller = .ok () c) →
          ¬s.StopsRinging (.draws o wait click) := by
        rintro hrefused (⟨hi, _⟩ | ⟨_, hclick, hc⟩ | ⟨he, _⟩)
        · cases hincoming.symm.trans hi
        · exact hrefused hclick hc
        · exact herror he
      cases click with
      | none =>
        rw [(renderCurrentView_call hcall wait .ok).1]
        exact hstays s rfl hincoming (hkeeps nofun)
      | some click =>
        rw [(renderCurrentView_call hcall wait click).2]
        by_cases hend : click = .endCall
        · subst hend
          obtain ⟨hdone, hrefused⟩ := endCall_timer o s
          by_cases hhung : ∃ c, Control.hangUp o s.controller = .ok () c
          · exact hstops _ (hdone hhung) (.inr (.inl ⟨hcall, rfl, hhung⟩)) hbegins
          · exact hstays _ (hrefused hhung) hincoming (hkeeps fun _ => hhung)
        · refine hstays _ (showCall_same hend).timeCallIncoming hincoming (hkeeps fun hclick => ?_)
          exact absurd (Option.some.inj hclick) hend
    · rw [Bool.not_eq_true] at hcall
      have hkeeps : (s.view = .error → click ≠ some .ok) → ¬s.StopsRinging (.draws o wait click) := by
        rintro hno (⟨hi, _⟩ | ⟨hc, _⟩ | ⟨he, hclick⟩)
        · cases hincoming.symm.trans hi
        · cases hcall.symm.trans hc
        · exact hno he hclick
      by_cases herror : s.view = .error
      · rw [renderCurrentView_error herror]
        by_cases hok : click = some .ok
        · rw [if_pos hok]
          exact hstops _ rfl (.inr (.inr ⟨herror, hok⟩)) hbegins
        · rw [if_neg hok]
          exact hstays _ rfl hincoming (hkeeps fun _ => hok)
      · have haside := (renderCurrentView_aside (o := o) hcall hincoming wait click).resolve_left herror
        exact hstays _ haside.timeCallIncoming hincoming (hkeeps fun he => absurd he herror)

/-- One step: the time is taken with the first frame and kept until the ringing stops. -/
theorem step_timer (move : AppMove) (hstep : s.step move = some (s', u)) (a : ℕ) :
    s'.timeCallIncoming = some a ↔
      s.BeginsToRing move a ∨ s.timeCallIncoming = some a ∧ ¬s.StopsRinging move := by
  by_cases hback : move.background = true
  · rw [(step_background hback hstep).timeCallIncoming]
    cases move with
    | lowers | handles | draws => cases hback
    | _ => simp [BeginsToRing, StopsRinging]
  · cases move with
    | told | reports | passes | drained | manages => exact absurd rfl hback
    | lowers =>
      cases hstep
      simp [BeginsToRing, StopsRinging]
    | handles o =>
      obtain ⟨event, events, hpart, hevents, rfl⟩ := step_handles hstep
      rw [handleEvent_timer]
      cases hends : endsCall event with
      | true => simp [BeginsToRing, StopsRinging, hevents, hends]
      | false => simp [BeginsToRing, StopsRinging, hevents, hends]
    | draws o wait click =>
      obtain ⟨hpart, rfl⟩ := step_draws hstep
      have hwarned : ∀ s' : RoomRtcApp, s' = s.showWarningPopup click →
          (s'.BeginsToRing (.draws o wait click) a ↔ s.BeginsToRing (.draws o wait click) a) ∧
          (s'.StopsRinging (.draws o wait click) ↔ s.StopsRinging (.draws o wait click)) ∧
          s'.timeCallIncoming = s.timeCallIncoming := by
        rintro s' rfl
        rw [showWarningPopup]
        split
        · exact ⟨Iff.rfl, Iff.rfl, rfl⟩
        · exact ⟨Iff.rfl, Iff.rfl, rfl⟩
      obtain ⟨hbegins, hstops, htimer⟩ := hwarned _ rfl
      refine (draws_timer (s.showWarningPopup click) wait click a).trans ?_
      rw [hbegins, hstops, htimer]

/-! ## Fifteen seconds -/

theorem step_unanswered {start : ℕ} (hin : s.view.isIncoming = true) (htimer : s.timeCallIncoming = some start)
    {move : AppMove} (hquiet : s.Unanswered move) (hstep : s.step move = some (s', u)) :
    (s.InTime start move → s'.view = s.view ∧ s'.timeCallIncoming = some start) ∧
      (¬s.InTime start move → s'.view.isIncoming = false) := by
  by_cases hback : move.background = true
  · have hsame := step_background hback hstep
    refine ⟨fun _ => ⟨hsame.view, hsame.timeCallIncoming.trans htimer⟩, fun hlate => ?_⟩
    cases move with
    | lowers | handles | draws => cases hback
    | _ => exact absurd trivial hlate
  · cases move with
    | told | reports | passes | drained | manages => exact absurd rfl hback
    | lowers =>
      cases hstep
      exact ⟨fun _ => ⟨rfl, htimer⟩, fun hlate => absurd trivial hlate⟩
    | handles o =>
      obtain ⟨event, events, hpart, hevents, rfl⟩ := step_handles hstep
      refine ⟨fun _ => ?_, fun hlate => absurd trivial hlate⟩
      have h := hquiet event events hevents
      cases event with
      | localStatsUpdate | remoteStatsUpdate | remoteFileOffer | fileDownloadCompleted => exact ⟨rfl, htimer⟩
      | _ => cases h
    | draws o wait click =>
      obtain ⟨hpart, rfl⟩ := step_draws hstep
      have hwarned := showWarningPopup_same s click
      obtain ⟨_, hnow⟩ := showWarningPopup_controller s click
      obtain ⟨peer, sdp, hview⟩ := exists_incoming (hwarned.view.symm ▸ hin)
      have hexp := expires_iff (hwarned.timeCallIncoming.trans htimer) wait
      rw [hnow] at hexp
      rw [renderCurrentView_incoming hview]
      constructor
      · intro htime
        have hring : ¬(s.showWarningPopup click).Expires wait := fun h => by
          have := hexp.mp h
          rw [InTime] at htime
          omega
        rw [showCallIncoming_rings peer sdp hring hquiet.1 hquiet.2]
        refine ⟨hwarned.view, ?_⟩
        dsimp only
        rw [hwarned.timeCallIncoming, htimer]
        rfl
      · intro hlate
        have hover : (s.showWarningPopup click).Expires wait := hexp.mpr (by
          rw [InTime] at hlate
          omega)
        dsimp only
        rw [(showCallIncoming_rejects peer sdp (.inl hover)).view]
        rfl

theorem renderCurrentView_not_incoming (hin : s.view.isIncoming = false) (wait : ℕ) (click : Option Click) :
    (s.renderCurrentView o wait click).view.isIncoming = false := by
  by_cases hcall : s.view.isCall = true
  · cases click with
    | none => rw [(renderCurrentView_call hcall wait .ok).1, hin]
    | some click =>
      rw [(renderCurrentView_call hcall wait click).2]
      by_cases hend : click = .endCall
      · rw [hend, showCall_endCall, hangUp]
        cases Control.hangUp o s.controller with
        | ok u c => rfl
        | error e c => rfl
      · rw [(showCall_same hend).view, hin]
  · rw [Bool.not_eq_true] at hcall
    obtain herror | haside := renderCurrentView_aside (o := o) hcall hin wait click
    · rw [renderCurrentView_error herror]
      split
      · rfl
      · exact hin
    · exact haside.noIncoming

/-- No call shows up by itself. -/
theorem step_not_incoming (hin : s.view.isIncoming = false) {move : AppMove} (hquiet : s.Unanswered move)
    (hstep : s.step move = some (s', u)) : s'.view.isIncoming = false := by
  by_cases hback : move.background = true
  · rw [(step_background hback hstep).view, hin]
  · cases move with
    | told | reports | passes | drained | manages => exact absurd rfl hback
    | lowers =>
      cases hstep
      exact hin
    | handles o =>
      obtain ⟨event, events, hpart, hevents, rfl⟩ := step_handles hstep
      have h := hquiet event events hevents
      cases event with
      | localStatsUpdate | remoteStatsUpdate | remoteFileOffer | fileDownloadCompleted => exact hin
      | _ => cases h
    | draws o wait click =>
      obtain ⟨hpart, rfl⟩ := step_draws hstep
      apply renderCurrentView_not_incoming
      rw [(showWarningPopup_same s click).view, hin]

theorem not_incoming_stays {moves : List AppMove} {os : List Unit} (hin : s.view.isIncoming = false)
    (hquiet : appMachine.Guarded Unanswered s moves) (hr : appMachine.run s moves = some (s', os)) :
    s'.view.isIncoming = false :=
  appMachine.run_invariant (fun s => s.view.isIncoming = false)
    (fun _ _ _ _ hin hquiet hstep => step_not_incoming hin hquiet hstep) hin hquiet hr

/-- A whole run: the call is still there just when every frame was in time. -/
theorem unanswered_incoming_iff {start : ℕ} {moves : List AppMove} {os : List Unit} (hin : s.view.isIncoming = true)
    (htimer : s.timeCallIncoming = some start) (hquiet : appMachine.Guarded Unanswered s moves)
    (hr : appMachine.run s moves = some (s', os)) :
    s'.view.isIncoming = true ↔ appMachine.Guarded (InTime start) s moves := by
  induction moves generalizing s os with
  | nil =>
    cases hr
    exact iff_of_true hin trivial
  | cons move moves ih =>
    obtain ⟨r, v, os', hstep, hrest, _⟩ := appMachine.run_cons_some hr
    obtain ⟨hstays, hgone⟩ := step_unanswered hin htimer hquiet.1 hstep
    by_cases htime : s.InTime start move
    · obtain ⟨hview, htimer'⟩ := hstays htime
      rw [ih (hview ▸ hin) htimer' (hquiet.2 r v hstep) hrest]
      refine ⟨fun h => ⟨htime, fun r' v' hstep' => ?_⟩, fun h => h.2 r v hstep⟩
      cases hstep.symm.trans hstep'
      exact h
    · have hnone := not_incoming_stays (hgone htime) (hquiet.2 r v hstep) hrest
      rw [hnone]
      exact iff_of_false Bool.false_ne_true fun h => htime h.1

end RoomRtcApp
open RoomRtcApp

/-- **How long a call rings.** In every state of a run the time of the ringing is that of the last first
frame of a call, if nothing has stopped the ringing since; and a call on the screen that nobody answers
and no event disturbs stays there just as long as every frame reads the clock before fifteen seconds
after that time, whichever call the time was taken for. -/
theorem rings_in_time_iff {o : Outside} {callSession : Session.CallSession} {s t : RoomRtcApp}
    (hnew : RoomRtcApp.new o callSession = some s) {moves : List AppMove} {os : List Unit}
    (hr : appMachine.run s moves = some (t, os)) (start : ℕ) :
    (t.timeCallIncoming = some start ↔ ∃ before move after r r' u ps, moves = before ++ move :: after ∧
        appMachine.run s before = some (r, ps) ∧ appMachine.step r move = some (r', u) ∧
        r.BeginsToRing move start ∧
        appMachine.Guarded (fun s move => ¬s.StopsRinging move) r' after) ∧
      ∀ later t' os', t.view.isIncoming = true → t.timeCallIncoming = some start →
        appMachine.Guarded Unanswered t later → appMachine.run t later = some (t', os') →
        (t'.view.isIncoming = true ↔ appMachine.Guarded (InTime start) t later) := by
  constructor
  · have hstep : ∀ s move s' u a, appMachine.step s move = some (s', u) → (s'.timeCallIncoming = some a ↔
        s.BeginsToRing move a ∨ s.timeCallIncoming = some a ∧ ¬s.StopsRinging move) :=
      fun s move s' u a h => step_timer move h a
    exact appMachine.register_iff hstep (new_starts hnew).2.1 hr start
  · exact fun later t' os' hin htimer hquiet hrun => unanswered_incoming_iff hin htimer hquiet hrun

/-! ## A time left behind -/

def lanOffer : Sdp :=
  .new [{ Session.MediaDescription.new "video".toList 50000 "RTP/AVP".toList {96} with
    attributes := [.fingerprint ⟨Session.sha256, [0xAB]⟩, .setup .actPass,
      .candidate (Session.lanHost "192.168.1.9".toList 50000)] }] .default

/-- The server has it all as the user wants it, but the peer cannot be reached. -/
def unreachedOutside : Outside where
  server
    | .hello => .response .welcome
    | .logIn _ _ => .response (.loginOk "token".toList ⟨127, 0, 0, 1, 8000⟩ ∅)
    | .callAccept _ _ _ => .response .callAcceptOk
    | .callReject _ _ => .response .callRejectOk
    | _ => .unreadable
  pushStream := true
  timeoutSet := true
  network _ := []
  transport _ _ _ := .started
  transferer _ _ _ := true
  media := .started
  timeoutsCleared := true
  goodbyeSent := true
  bound := true
  cloned := true
  session := .ok lanSession
  fileSent := true
  fileAccepted := true
  fileRejected := true

/-- What comes before the screen in a frame without events. -/
def beforeScreen : List AppMove := [.drained, .manages unreachedOutside none false]

def frame (click : Option Click) : List AppMove := beforeScreen ++ [.draws unreachedOutside 0 click]

/-- Alice accepts Bob's call after ten seconds, which fails; ten seconds later Carol calls. -/
def unreachedThenCalled : List AppMove :=
  frame (some .logInScreen) ++ frame (some (.typed "alice".toList "secret".toList)) ++ frame (some .submit) ++
    [.told "alice".toList (.callIncoming "bob".toList lanOffer), .handles unreachedOutside] ++ frame none ++
    [.passes 10000000000] ++ frame (some .accept) ++
    [.passes 10000000000, .told "alice".toList (.callIncoming "carol".toList lanOffer), .handles unreachedOutside]

/-- The call is gone before anyone has seen it. -/
theorem second_call_cut_short : ∃ s t t' os ps, RoomRtcApp.new unreachedOutside lanSession = some s ∧
    appMachine.run s unreachedThenCalled = some (t, os) ∧ t.view = .callIncoming "carol".toList lanOffer ∧
    t.timeCallIncoming = some 0 ∧ appMachine.run t (frame none) = some (t', ps) ∧ t'.view.isIncoming = false := by
  have hfacts : ((RoomRtcApp.new unreachedOutside lanSession).bind fun s =>
      (appMachine.run s unreachedThenCalled).bind fun t => (appMachine.run t.1 beforeScreen).bind fun r =>
      (appMachine.run r.1 [.draws unreachedOutside 0 none]).map fun _ => (t.1.view, t.1.timeCallIncoming, r.1.now)) =
        some (.callIncoming "carol".toList lanOffer, some 0, 20000000000) := by decide +kernel
  obtain ⟨s, hnew, hfacts⟩ := Option.bind_eq_some_iff.mp hfacts
  obtain ⟨⟨t, os⟩, ht, hfacts⟩ := Option.bind_eq_some_iff.mp hfacts
  obtain ⟨⟨r, ps⟩, hr, hfacts⟩ := Option.bind_eq_some_iff.mp hfacts
  obtain ⟨⟨t', qs⟩, ht', hfacts⟩ := Option.map_eq_some_iff.mp hfacts
  simp only [Prod.mk.injEq] at hfacts
  obtain ⟨hview, htimer, hnow⟩ := hfacts
  have hrun : appMachine.run t (frame none) = some (t', ps ++ qs) := appMachine.run_append hr ht'
  have hquiet : appMachine.Guarded Unanswered t (frame none) :=
    ⟨trivial, fun _ _ _ => ⟨trivial, fun _ _ _ => ⟨⟨nofun, nofun⟩, fun _ _ _ => trivial⟩⟩⟩
  have hiff := (rings_in_time_iff hnew ht 0).2 (frame none) t' _ (by rw [hview]; rfl) htimer hquiet hrun
  refine ⟨s, t, t', os, _, hnew, ht, hview, htimer, hrun, ?_⟩
  rw [← Bool.not_eq_true, hiff]
  intro hguarded
  have hlate : r.now + 0 < 0 + 15 * 1000000000 := ((appMachine.guarded_concat hr).mp hguarded).2
  omega

end RoomRtc.Ui
