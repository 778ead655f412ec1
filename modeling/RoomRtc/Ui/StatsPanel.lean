import RoomRtc.Foundations.Trace
import RoomRtc.Transport.CallEnd
import RoomRtc.Ui.CallScreen

/-! The statistics below the pictures. A report of the peer tells of its sending or of its receiving, and
goes to the screen with zeros in place of the other; there both are taken over. So the panel shows what
the last report says and has forgotten the one before, in every call the program makes. -/
namespace RoomRtc.Ui
open Control Attempts
open Transport (CallStats ReportSenderPoint)
set_option autoImplicit false

/-! ## Reports -/

def isLocalStats : AppEvent → Bool
  | .localStatsUpdate _ => true
  | _ => false

def isRemoteStats : AppEvent → Bool
  | .remoteStatsUpdate _ => true
  | _ => false

def isStats (event : AppEvent) : Bool := isLocalStats event || isRemoteStats event

def statsOf : AppEvent → CallStats
  | .localStatsUpdate stats | .remoteStatsUpdate stats => stats
  | _ => {}

/-- Statistics as a thread of the call sends them: the report sender its own, the report receiver what
a datagram of the peer says. -/
def Genuine : AppEvent → Prop
  | .localStatsUpdate stats => ∃ gathered sent connected point,
    (ReportSenderPoint.step gathered sent connected point).event = some (.localStatsUpdate stats)
  | .remoteStatsUpdate stats => ∃ received silent,
    Transport.tryReceiveReport received silent = .ok (some (.remoteStatsUpdate stats))
  | _ => True

theorem genuine_local {stats : CallStats} (h : Genuine (.localStatsUpdate stats)) :
    stats.remoteSender = ⟨0, 0⟩ ∧ stats.remoteReceiver = ⟨0, 0, 0⟩ := by
  obtain ⟨gathered, sent, connected, point, h⟩ := h
  cases point with
  | localUpdate senderStats receiverStats =>
    cases h
    exact ⟨rfl, rfl⟩
  | gatherLocalStats =>
    cases gathered with
    | none => cases h
    | some both => cases h
  | _ => cases h

theorem genuine_remote {stats : CallStats} (h : Genuine (.remoteStatsUpdate stats)) :
    (stats.localSender = ⟨0, 0⟩ ∧ stats.localReceiver = ⟨0, 0, 0⟩) ∧
      (stats.remoteSender = ⟨0, 0⟩ ∨ stats.remoteReceiver = ⟨0, 0, 0⟩) := by
  obtain ⟨received, silent, h⟩ := h
  unfold Transport.tryReceiveReport at h
  split at h
  · unfold Transport.handleRtcpReportReception at h
    split at h
    · cases h
      exact ⟨⟨rfl, rfl⟩, .inr rfl⟩
    · cases h
      exact ⟨⟨rfl, rfl⟩, .inl rfl⟩
    · cases h
    · cases h
    · cases silent <;> cases h
  · cases silent <;> cases h

/-! ## What the panel shows -/

/-- The statistics of the last event of its kind, zeros if there is none. -/
def lastStatsOf (kind : AppEvent → Bool) (handled : List AppEvent) : CallStats :=
  ((lastOf kind handled).map statsOf).getD {}

/-- One half from the last report of each side. -/
def panel (handled : List AppEvent) : Option CallStats :=
  if handled = [] then none
  else some {
    localSender := (lastStatsOf isLocalStats handled).localSender
    localReceiver := (lastStatsOf isLocalStats handled).localReceiver
    remoteSender := (lastStatsOf isRemoteStats handled).remoteSender
    remoteReceiver := (lastStatsOf isRemoteStats handled).remoteReceiver }

theorem lastStatsOf_concat_self {kind : AppEvent → Bool} {event : AppEvent} (h : kind event = true)
    (handled : List AppEvent) : lastStatsOf kind (handled ++ [event]) = statsOf event := by
  rw [lastStatsOf, lastOf_concat_self h]
  rfl

theorem lastStatsOf_concat_other {kind : AppEvent → Bool} {event : AppEvent} (h : kind event = false)
    (handled : List AppEvent) : lastStatsOf kind (handled ++ [event]) = lastStatsOf kind handled := by
  rw [lastStatsOf, lastOf_concat_other h]
  rfl

/-- The last report of the peer tells only one thing. -/
theorem lastStatsOf_remote {handled : List AppEvent} (h : ∀ event ∈ handled, Genuine event) :
    (lastStatsOf isRemoteStats handled).remoteSender = ⟨0, 0⟩ ∨
      (lastStatsOf isRemoteStats handled).remoteReceiver = ⟨0, 0, 0⟩ := by
  rw [lastStatsOf]
  cases hlast : lastOf isRemoteStats handled with
  | none => exact .inl rfl
  | some event =>
    have hmem : event ∈ handled := List.mem_reverse.mp (List.mem_of_find?_eq_some hlast)
    have hkind : isRemoteStats event = true := List.find?_some hlast
    cases event with
    | remoteStatsUpdate stats => exact (genuine_remote (h _ hmem)).2
    | _ => cases hkind

namespace RoomRtcApp

/-- Statistics as they come to the screen. -/
def takeStats (lastStats : Option CallStats) : AppEvent → Option CallStats
  | .localStatsUpdate new => some (match lastStats with
    | some current => { current with localSender := new.localSender, localReceiver := new.localReceiver }
    | none => new)
  | .remoteStatsUpdate new => some (match lastStats with
    | some current => { current with remoteSender := new.remoteSender, remoteReceiver := new.remoteReceiver }
    | none => new)
  | _ => lastStats

theorem takeStats_panel {event : AppEvent} (hstats : isStats event = true) (hgenuine : Genuine event)
    (handled : List AppEvent) : takeStats (panel handled) event = panel (handled ++ [event]) := by
  have hempty : lastStatsOf isLocalStats [] = {} ∧ lastStatsOf isRemoteStats [] = {} := ⟨rfl, rfl⟩
  cases event with
  | localStatsUpdate new =>
    have hlocal := @lastStatsOf_concat_self isLocalStats (.localStatsUpdate new) rfl handled
    have hremote := @lastStatsOf_concat_other isRemoteStats (.localStatsUpdate new) rfl handled
    rw [panel, panel, if_neg (List.append_ne_nil_of_right_ne_nil _ (List.cons_ne_nil _ _)), hlocal, hremote]
    split
    · next hnil =>
      obtain ⟨hsender, hreceiver⟩ := genuine_local hgenuine
      subst hnil
      rw [hempty.2, takeStats, statsOf, ← hsender, ← hreceiver]
    · rfl
  | remoteStatsUpdate new =>
    have hlocal := @lastStatsOf_concat_other isLocalStats (.remoteStatsUpdate new) rfl handled
    have hremote := @lastStatsOf_concat_self isRemoteStats (.remoteStatsUpdate new) rfl handled
    rw [panel, panel, if_neg (List.append_ne_nil_of_right_ne_nil _ (List.cons_ne_nil _ _)), hlocal, hremote]
    split
    · next hnil =>
      obtain ⟨hsender, hreceiver⟩ := (genuine_remote hgenuine).1
      subst hnil
      rw [hempty.1, takeStats, statsOf, ← hsender, ← hreceiver]
    · rfl
  | _ => cases hstats

/-! ## What keeps the panel -/

/-- Nothing has come to the panel or is on its way to it. -/
structure SameStats (s s' : RoomRtcApp) : Prop where
  notified : Notified s.controller s'.controller
  lastStats : s'.lastStats = s.lastStats

variable {o : Outside} {s s' : RoomRtcApp} {u : Unit}

theorem hangUp_notified (o : Outside) (s : RoomRtcApp) {hungUp : RoomRtcApp → RoomRtcApp}
    (hkeeps : ∀ s : RoomRtcApp, (hungUp s).controller = s.controller ∧ (hungUp s).lastStats = s.lastStats) :
    s.SameStats (s.hangUp o hungUp) := by
  have h := hangUp_ends o s.controller
  rw [hangUp]
  cases hx : Control.hangUp o s.controller with
  | ok u c =>
    obtain ⟨_, hstopped, _⟩ := h.of_ok hx
    obtain ⟨hcontroller, hstats⟩ := hkeeps { s with controller := c }
    refine ⟨notified_of_events ?_, hstats⟩
    dsimp only
    rw [hcontroller]
    exact hstopped.events
  | error e c =>
    obtain ⟨_, hstopped⟩ | ⟨_, honly⟩ := h.of_error hx
    · exact ⟨notified_of_events hstopped.events, rfl⟩
    · exact ⟨honly.notified, rfl⟩

theorem handleEvent_stats (o : Outside) (s : RoomRtcApp) (event : AppEvent) :
    Notified s.controller (s.handleEvent o event).controller ∧
      (s.handleEvent o event).lastStats = takeStats s.lastStats event := by
  have hhangUp : ∀ hungUp : RoomRtcApp → RoomRtcApp,
      (∀ s : RoomRtcApp, (hungUp s).controller = s.controller ∧ (hungUp s).lastStats = s.lastStats) →
        Notified s.controller (s.hangUp o hungUp).resetAfterCall.controller ∧
          (s.hangUp o hungUp).resetAfterCall.lastStats = s.lastStats := by
    intro hungUp hkeeps
    obtain ⟨hnotified, hstats⟩ := hangUp_notified o s hkeeps
    exact ⟨hnotified, hstats⟩
  cases event with
  | callEnded => exact hhangUp _ fun s => ⟨rfl, rfl⟩
  | error e => exact hhangUp _ fun s => ⟨rfl, rfl⟩
  | fatalError =>
    have h := stopMediaComponents_ends o s.controller
    rw [handleEvent]
    cases hx : stopMediaComponents o s.controller with
    | ok u c => exact ⟨notified_of_events (h.of_ok hx).events, rfl⟩
    | error e c => exact ⟨notified_of_events (h.of_error hx).events, rfl⟩
  | callAccepted answerSdp username peer =>
    have h := getInCall_ends o answerSdp s.controller
    rw [handleEvent]
    cases hx : getInCall o answerSdp s.controller with
    | ok u c => exact ⟨(h.of_ok hx).2, rfl⟩
    | error e c => exact ⟨h.of_error hx, rfl⟩
  | _ => exact ⟨notified_of_events rfl, rfl⟩

theorem handleAcceptLogic_stats (o : Outside) (s : RoomRtcApp) (peer : Str) (sdp : Sdp) :
    s.SameStats (s.handleAcceptLogic o peer sdp) := by
  have h := acceptCall_ends o peer sdp s.controller
  rw [handleAcceptLogic]
  cases hx : acceptCall o peer sdp s.controller with
  | ok u c =>
    have hnotified := (h.of_ok hx).2.2
    have hname := getToken_ends c
    dsimp only
    cases hy : getUsername c with
    | ok name c' =>
      obtain ⟨rfl, _⟩ := hname.of_ok hy
      exact ⟨hnotified, rfl⟩
    | error e c' =>
      obtain ⟨rfl, _⟩ := hname.of_error hy
      exact ⟨hnotified, rfl⟩
  | error e c => exact ⟨h.of_error hx, rfl⟩

theorem renderCurrentView_stats (s : RoomRtcApp) (wait : ℕ) (click : Option Click) :
    s.SameStats (s.renderCurrentView o wait click) := by
  by_cases hcall : s.view.isCall = true
  · cases click with
    | none =>
      rw [(renderCurrentView_call hcall wait .ok).1]
      exact ⟨notified_of_events rfl, rfl⟩
    | some click =>
      rw [(renderCurrentView_call hcall wait click).2]
      by_cases hend : click = .endCall
      · rw [hend, showCall_endCall]
        exact hangUp_notified o s fun s => ⟨rfl, rfl⟩
      · have h := showCall_same (o := o) (s := s) hend
        exact ⟨h.notified, h.lastStats⟩
  · rw [Bool.not_eq_true] at hcall
    by_cases hincoming : s.view.isIncoming = true
    · obtain ⟨peer, sdp, hview⟩ := exists_incoming hincoming
      rw [renderCurrentView_incoming hview]
      by_cases hrejects : s.Expires wait ∨ click = some .decline
      · have h := showCallIncoming_rejects (o := o) peer sdp hrejects
        exact ⟨h.quiet.notified, h.lastStats⟩
      · obtain ⟨hring, hdecline⟩ := not_or.mp hrejects
        by_cases haccept : click = some .accept
        · rw [haccept, showCallIncoming_accepts peer sdp hring]
          obtain ⟨hnotified, hstats⟩ := handleAcceptLogic_stats o { s with
            timeCallIncoming := some (s.timeCallIncoming.getD s.now), now := s.now + wait } peer sdp
          exact ⟨hnotified, hstats⟩
        · rw [showCallIncoming_rings peer sdp hring haccept hdecline]
          exact ⟨notified_of_events rfl, rfl⟩
    · rw [Bool.not_eq_true] at hincoming
      obtain herror | haside := renderCurrentView_aside (o := o) hcall hincoming wait click
      · rw [renderCurrentView_error herror]
        split
        · exact ⟨notified_of_events rfl, rfl⟩
        · exact ⟨notified_of_events rfl, rfl⟩
      · exact ⟨haside.quiet.notified, haside.lastStats⟩


/-! ## From the threads to the panel -/

/-- The statistics that a thread sends. -/
def AppMove.reported : AppMove → List AppEvent
  | .reports r => [r.event].filter isStats
  | _ => []

/-- The statistics that wait to be handled. -/
def waitingStats (s : RoomRtcApp) : List AppEvent := s.controller.events.filter isStats

theorem filter_notified {c c' : Controller} (h : Notified c c') :
    c'.events.filter isStats = c.events.filter isStats := by
  obtain ⟨notices, hall, hevents⟩ := h
  have hnone : notices.filter isStats = [] := by
    rw [List.filter_eq_nil_iff]
    intro event hevent hstats
    have hnotice := hall event hevent
    cases event with
    | localStatsUpdate | remoteStatsUpdate => cases hnotice
    | _ => cases hstats
  rw [hevents, List.filter_append, hnone, List.append_nil]

theorem SameStats.waiting (h : s.SameStats s') : s'.waitingStats = s.waitingStats := filter_notified h.notified

/-- The message of the server is not about statistics. -/
theorem told_stats (username : Str) (message : ServerMessage Sdp) (c : Controller) :
    (getResponseForServerMessage username message c).1.events.filter isStats = c.events.filter isStats := by
  have hother : ∀ event : AppEvent, isStats event = false →
    (c.events ++ [event]).filter isStats = c.events.filter isStats := by
    intro event h
    simp [List.filter_append, h]
  cases message with
  | callIncoming fromUsr sdp => exact hother _ rfl
  | callAccepted fromUsr sdp => exact hother _ rfl
  | callRejected => exact hother _ rfl
  | error text => exact hother _ rfl
  | usernameRequest | userStatusUpdate => rfl

theorem takeStats_other {event : AppEvent} (h : isStats event = false) (lastStats : Option CallStats) :
    takeStats lastStats event = lastStats := by
  cases event with
  | localStatsUpdate | remoteStatsUpdate => cases h
  | _ => rfl

/-- One step: the first of the waiting statistics goes to the panel, or what is reported waits behind them. -/
theorem step_stats {move : AppMove} (hstep : s.step move = some (s', u)) :
    (∃ event, isStats event = true ∧ s.waitingStats = event :: s'.waitingStats ∧ move.reported = [] ∧
        s'.lastStats = takeStats s.lastStats event) ∨
      s'.waitingStats = s.waitingStats ++ move.reported ∧ s'.lastStats = s.lastStats := by
  have hsame : ∀ s' : RoomRtcApp, s.SameStats s' → move.reported = [] →
      s'.waitingStats = s.waitingStats ++ move.reported ∧ s'.lastStats = s.lastStats := by
    intro s' h hnone
    rw [hnone, List.append_nil]
    exact ⟨h.waiting, h.lastStats⟩
  cases move with
  | told username message =>
    cases hstep
    have hnone : (AppMove.told username message).reported = [] := rfl
    rw [hnone, List.append_nil]
    exact .inr ⟨told_stats username message s.controller, rfl⟩
  | reports r =>
    cases hstep
    exact .inr ⟨List.filter_append .., rfl⟩
  | lowers | passes time =>
    cases hstep
    exact .inr (hsame _ ⟨notified_of_events rfl, rfl⟩ rfl)
  | drained =>
    rw [step] at hstep
    split at hstep
    · cases hstep
      exact .inr (hsame _ ⟨notified_of_events rfl, rfl⟩ rfl)
    · cases hstep
  | manages o saved picked =>
    rw [step] at hstep
    split at hstep
    · cases hstep
      have h := manageFiles_same o s saved picked
      exact .inr (hsame _ ⟨h.notified, h.lastStats⟩ rfl)
    · cases hstep
  | handles o =>
    obtain ⟨event, events, _, hevents, rfl⟩ := step_handles hstep
    obtain ⟨hnotified, hstats⟩ := handleEvent_stats o { s with controller.events := events } event
    have hwaiting := filter_notified hnotified
    cases hkind : isStats event with
    | true =>
      refine .inl ⟨event, hkind, ?_, rfl, hstats⟩
      rw [waitingStats, waitingStats, hwaiting, hevents, List.filter_cons_of_pos hkind]
    | false =>
      refine .inr ⟨?_, hstats.trans (takeStats_other hkind _)⟩
      rw [waitingStats, waitingStats, hwaiting, hevents, List.filter_cons_of_neg (by simp [hkind])]
      exact (List.append_nil _).symm
  | draws o wait click =>
    obtain ⟨_, rfl⟩ := step_draws hstep
    have hwarned := showWarningPopup_same s click
    obtain ⟨hnotified, hstats⟩ := renderCurrentView_stats (o := o) (s.showWarningPopup click) wait click
    refine .inr (hsame _ ⟨?_, ?_⟩ rfl)
    · exact notified_trans _ _ _ hwarned.notified hnotified
    · exact hstats.trans hwarned.lastStats

end RoomRtcApp
open RoomRtcApp

/-- **What the panel shows.** In every run in which the statistics are such as the threads send, they
come to the panel in the order in which they were sent, and the panel shows the last ones of either
side that have come; so of what the peer has sent and what it has received one is always zero. -/
theorem panel_shows_last {o : Outside} {callSession : Session.CallSession} {s t : RoomRtcApp}
    (hnew : RoomRtcApp.new o callSession = some s) {moves : List AppMove} {os : List Unit}
    (hr : appMachine.run s moves = some (t, os))
    (hgenuine : ∀ event ∈ moves.flatMap AppMove.reported, Genuine event) :
    ∃ handled, moves.flatMap AppMove.reported = handled ++ t.waitingStats ∧ t.lastStats = panel handled ∧
      ∀ stats, t.lastStats = some stats →
      stats.remoteSender = ⟨0, 0⟩ ∨ stats.remoteReceiver = ⟨0, 0, 0⟩ := by
  have key : ∃ handled, moves.flatMap AppMove.reported = handled ++ t.waitingStats ∧
    t.lastStats = panel handled := by
    refine appMachine.run_induction (G := fun _ move => ∀ event ∈ move.reported, Genuine event)
      (fun moves _ t => (∀ event ∈ moves.flatMap AppMove.reported, Genuine event) ∧ ∃ handled,
        moves.flatMap AppMove.reported = handled ++ t.waitingStats ∧ t.lastStats = panel handled)
      ?step ⟨nofun, [], ?_, ?_⟩ ?_ hr |>.2
    case step =>
      rintro moves _ t move t' u ⟨hall, handled, hreported, hpanel⟩ hmove hstep
      have hall' : ∀ event ∈ (moves ++ [move]).flatMap AppMove.reported, Genuine event := by
        intro event hevent
        rw [List.flatMap_append, List.flatMap_singleton] at hevent
        exact (List.mem_append.mp hevent).elim (hall event) (hmove event)
      refine ⟨hall', ?_⟩
      rw [List.flatMap_append, List.flatMap_singleton, hreported]
      obtain ⟨event, hkind, hwaiting, hnone, htaken⟩ | ⟨hwaiting, hkept⟩ := step_stats hstep
      · have hevent : Genuine event := by
          apply hall event
          rw [hreported, hwaiting]
          exact List.mem_append_right _ (List.mem_cons_self ..)
        refine ⟨handled ++ [event], by rw [hnone, hwaiting]; simp, ?_⟩
        rw [htaken, hpanel, takeStats_panel hkind hevent]
      · exact ⟨handled, by rw [hwaiting, List.append_assoc], hkept.trans hpanel⟩
    · exact (filter_notified (new_starts hnew).1.notified).symm
    · exact (new_starts hnew).2.2
    · apply appMachine.guarded_of_forall
      exact fun move hmove _ event hevent => hgenuine event (List.mem_flatMap.mpr ⟨move, hmove, hevent⟩)
  obtain ⟨handled, hreported, hpanel⟩ := key
  refine ⟨handled, hreported, hpanel, fun stats hstats => ?_⟩
  rw [hpanel, panel] at hstats
  split at hstats
  · cases hstats
  · cases hstats
    apply lastStatsOf_remote
    intro event hevent
    apply hgenuine event
    rw [hreported]
    exact List.mem_append_left _ hevent

/-! ## A loss forgotten -/

/-- The peer has lost seven packets, -/
def lostSeven : CallStats := { remoteReceiver := ⟨100, 7, 3⟩ }

/-- and its next report is about its own. -/
def sentMore : CallStats := { remoteSender := ⟨120, 9000⟩ }

def lossThenSent : List AppMove :=
  [.reports (.remoteStatsUpdate lostSeven), .handles lanOutside, .reports (.remoteStatsUpdate sentMore),
    .handles lanOutside]

theorem lossThenSent_genuine : ∀ event ∈ lossThenSent.flatMap AppMove.reported, Genuine event := by
  have hlost : Genuine (.remoteStatsUpdate lostSeven) := by
    refine ⟨some (Transport.RtcpPacket.receiverReport ⟨100, 7, 3⟩).toBytes, false, ?_⟩
    simp [Transport.tryReceiveReport, Transport.handleRtcpReportReception,
      Transport.RtcpPacket.fromBytes_toBytes, lostSeven]
  have hsent : Genuine (.remoteStatsUpdate sentMore) := by
    refine ⟨some (Transport.RtcpPacket.senderReport ⟨120, 9000⟩).toBytes, false, ?_⟩
    simp [Transport.tryReceiveReport, Transport.handleRtcpReportReception,
      Transport.RtcpPacket.fromBytes_toBytes, sentMore]
  intro event hevent
  have hboth : event ∈ [AppEvent.remoteStatsUpdate lostSeven, .remoteStatsUpdate sentMore] := hevent
  rw [List.mem_pair] at hboth
  obtain rfl | rfl := hboth
  · exact hlost
  · exact hsent

/-- The panel says that nothing was lost. -/
theorem loss_forgotten : ∃ s t os stats, RoomRtcApp.new lanOutside lanSession = some s ∧
    appMachine.run s lossThenSent = some (t, os) ∧ t.lastStats = some stats ∧
    stats.remoteReceiver = ⟨0, 0, 0⟩ := by
  have hfacts : ((RoomRtcApp.new lanOutside lanSession).bind fun s => (appMachine.run s lossThenSent).map fun r =>
      r.1.waitingStats) = some [] := by decide +kernel
  obtain ⟨s, hnew, hfacts⟩ := Option.bind_eq_some_iff.mp hfacts
  obtain ⟨⟨t, os⟩, hr, hwaiting⟩ := Option.map_eq_some_iff.mp hfacts
  obtain ⟨handled, hreported, hpanel, hzero⟩ := panel_shows_last hnew hr lossThenSent_genuine
  dsimp only at hwaiting
  rw [hwaiting, List.append_nil] at hreported
  have hshown : t.lastStats = some sentMore := by
    rw [hpanel, ← hreported]
    rfl
  refine ⟨s, t, os, sentMore, hnew, hr, hshown, (hzero _ hshown).resolve_left ?_⟩
  decide

end RoomRtc.Ui
