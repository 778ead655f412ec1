import RoomRtc.Server.Statuses
import RoomRtc.Transport.CallEnd
import RoomRtc.Ui.IncomingCall

/-! A call with its threads, its user and the server. Each thread that finds the flag up at its last check
sends a `CallEnded`, the user may click End Call, and every one of them has the client ask the server
to hang up. The server grants that once; who asks again gets the fatal error for a screen. -/
namespace RoomRtc.Ui
open Control Attempts
open Transport (CallThreads CallTurn callMachine_event callMachine_follows callMachine)
set_option autoImplicit false

/-- An event of a thread of the call, as the user's thread takes it. -/
def fromThread : Transport.AppEvent → AppEvent
  | .callEnded => .callEnded
  | .localStatsUpdate stats => .localStatsUpdate stats
  | .remoteStatsUpdate stats => .remoteStatsUpdate stats

/-- The flag is one and the same in the application and in the threads. -/
structure CallEnding where
  app : RoomRtcApp
  threads : CallThreads
  server : OperatingServer

inductive EndingMove where
  | thread (turn : CallTurn)
  | user (move : RoomRtcApp.AppMove)

/-- The move asks the server to hang up. -/
def RoomRtcApp.asksHangUp (s : RoomRtcApp) : AppMove → Bool
  | .handles _ => s.controller.events.head?.any endsCall
  | .draws _ _ click => s.view.isCall && click == some .endCall
  | _ => false

/-- The user ends the call. -/
def RoomRtcApp.clicksEnd (s : RoomRtcApp) : AppMove → Bool
  | .draws _ _ click => s.view.isCall && click == some .endCall
  | _ => false

namespace CallEnding

/-- A thread has gone on: what it sends comes behind the events that wait. -/
def afterTurn (retryLimit : ℕ) (s : CallEnding) (turn : CallTurn) : CallEnding :=
  let after := s.threads.step retryLimit turn
  { s with
    threads := after.1
    app.controller := { s.app.controller with
      transport := { s.app.controller.transport with connected := after.1.connected }
      events := s.app.controller.events ++ (after.2.map fromThread).toList } }

/-- A step says whether the user has clicked End Call. -/
def step (retryLimit : ℕ) (s : CallEnding) : EndingMove → Option (CallEnding × Bool)
  | .thread turn => some (s.afterTurn retryLimit turn, false)
  | .user move =>
    (s.app.step move).map fun (app, _) =>
      ({ app
         threads := { s.threads with connected := app.connected }
         server := match s.app.asksHangUp move, s.app.controller.token with
          | true, some token => (s.server.callHangup token : Outcome Sdp).server
          | _, _ => s.server }, s.app.clicksEnd move)

/-! ## What is on the way -/

/-- The server answers as it stands, and hanging up goes well on this side. -/
structure Serves (server : OperatingServer) (o : Outside) : Prop where
  answers : ∀ token, o.server (.callHangup token) = .response (server.callHangup token : Outcome Sdp).response
  timeoutsCleared : o.timeoutsCleared = true
  goodbyeSent : o.goodbyeSent = true
  bound : o.bound = true
  cloned : o.cloned = true
  session : ∃ callSession, o.session = .ok callSession

/-- Nothing else happens: no other call, no error, and the user neither calls nor leaves. -/
def Alone (server : OperatingServer) : RoomRtcApp.AppMove → Prop
  | .told _ message => message = .usernameRequest ∨ ∃ username status, message = .userStatusUpdate username status
  | .reports r => isQuiet r.event = true
  | .lowers => False
  | .handles o => Serves server o
  | .draws o _ click => Serves server o ∧ click ≠ some .logOut ∧ ∀ username, click ≠ some (.call username)
  | .passes _ | .drained | .manages _ _ _ => True

def Undistracted (s : CallEnding) : EndingMove → Prop
  | .thread _ => True
  | .user move => Alone s.server move

/-- The ends of the call that wait to be handled. -/
def pending (app : RoomRtcApp) : ℕ := app.controller.events.count .callEnded

/-- So many threads have sent that the call has ended. -/
def reports (s : CallEnding) : ℕ := s.threads.view.reports

/-- How it stands when `asked` requests to hang up have gone to the server. -/
structure Stage (user : Str) (asked : ℕ) (app : RoomRtcApp) (server : OperatingServer) : Prop where
  queue : ∀ event ∈ app.controller.events, isQuiet event = true ∨ event = .callEnded
  token : app.controller.token = some user
  before : asked = 0 → app.view.isCall = true ∧ InCall server.users user
  once : asked = 1 → (app.view = .callEnded ∨ app.view = .callHub) ∧ ¬InCall server.users user
  again : 2 ≤ asked → app.view = .fatalError ∧ ¬InCall server.users user

end CallEnding

def endingMachine (retryLimit : ℕ) : Machine CallEnding EndingMove Bool where
  step := CallEnding.step retryLimit

namespace CallEnding
variable {user : Str} {asked : ℕ} {app app' : RoomRtcApp} {server : OperatingServer} {o : Outside}

/-! ## Hanging up -/

theorem granted_iff (h : Serves server o) {c : Controller} (htoken : c.token = some user) :
    Granted o c ↔ InCall server.users user := by
  have hgranted : Granted o c ↔ (server.callHangup user : Outcome Sdp).response = .callHangUpOk := by
    rw [Granted, htoken]
    simp [h.answers]
  rw [hgranted]
  constructor
  · intro hok
    by_contra hnot
    unfold OperatingServer.callHangup at hok
    split at hok
    · cases hok
    · next data hlook =>
      split at hok
      · cases hok
      · cases hok
      · next peer hst => exact hnot ⟨peer, statusOf_eq_some.mpr ⟨data, hlook, hst⟩⟩
  · intro hcall
    rw [callHangup_granted Sdp server hcall]

/-- Granted, the call is over; refused, nothing has changed. -/
theorem hangUp_served (h : Serves server o) {c : Controller} (htoken : c.token = some user) :
    Ends (Control.hangUp o) c (fun _ c' => InCall server.users user ∧ c'.events = c.events ∧ c'.token = c.token)
      fun _ c' => ¬InCall server.users user ∧ c' = c := by
  have hsend : Ends (sendHangUp o) c (fun _ c' => c' = c ∧ InCall server.users user)
      fun _ c' => ¬InCall server.users user ∧ c' = c := by
    have hgetToken : Ends getToken c (fun token c' => c' = c ∧ token = user) fun _ _ => False := by
      refine (getToken_ends c).mono ?_ ?_
      · rintro token _ ⟨rfl, hsome⟩
        exact ⟨rfl, Option.some.inj (hsome.symm.trans htoken)⟩
      · rintro _ _ ⟨_, hnone⟩
        cases htoken.symm.trans hnone
    rw [sendHangUp, ends_bind]
    refine hgetToken.mono ?_ fun _ _ h => h.elim
    rintro token c ⟨rfl, rfl⟩
    rw [ends_bind]
    refine (sendMessage_ends o _ c).mono ?_ fun _ _ hno => absurd (h.answers token) (hno.2 _)
    rintro r c ⟨rfl, hr⟩
    have hiff := granted_iff h htoken
    rw [Granted, htoken] at hiff
    simp only [Option.some.injEq, exists_eq_left', hr, Reply.response.injEq] at hiff
    cases r with
    | callHangUpOk => exact ⟨rfl, hiff.mp rfl⟩
    | _ => exact ⟨fun hcall => absurd (hiff.mpr hcall) ServerResponse.noConfusion, rfl⟩
  rw [Control.hangUp, ends_bind]
  refine hsend.mono ?_ fun _ _ h => h
  rintro _ c ⟨rfl, hcall⟩
  obtain ⟨callSession, hsession⟩ := h.session
  simp only [stopMediaComponents, renew, ends_bind, ends_modify, ends_ensure, ends_get, h.timeoutsCleared,
    h.goodbyeSent, h.bound, h.cloned, hsession, Bool.or_true, Bool.true_eq_false, IsEmpty.forall_iff, and_true,
    forall_const]
  exact hcall

theorem not_inCall_after (h : InCall server.users user) :
    ¬InCall (server.callHangup user : Outcome Sdp).server.users user := by
  rw [callHangup_granted Sdp server h]
  rintro ⟨peer, hst⟩
  rw [statusOf_setStatus, if_pos rfl] at hst
  obtain ⟨peer', hst'⟩ := h
  rw [hst'] at hst
  cases hst

theorem server_after_refused (h : ¬InCall server.users user) :
    (server.callHangup user : Outcome Sdp).server = server := by
  obtain ⟨response, hr⟩ := callHangup_denied Sdp server h
  rw [hr]
  rfl


/-! ## One step -/

/-- What changes neither the screen nor the user. -/
theorem Stage.of_same (h : Stage user asked app server) (hview : app'.view = app.view)
    (htoken : app'.controller.token = app.controller.token) (hqueue : ∀ event ∈ app'.controller.events,
      event ∈ app.controller.events ∨ isQuiet event = true ∨ event = .callEnded) : Stage user
        asked app' server where
  queue event hevent := (hqueue event hevent).elim (h.queue event) id
  token := htoken.trans h.token
  before hasked := by
    rw [hview]
    exact h.before hasked
  once hasked := by
    rw [hview]
    exact h.once hasked
  again hasked := by
    rw [hview]
    exact h.again hasked

/-- A request to hang up: the first one is granted, and no other. -/
theorem Stage.hangUp (h : Stage user asked app server) (hs : Serves server o) (hungUp : RoomRtcApp → RoomRtcApp)
    (hkeeps : ∀ s : RoomRtcApp, (hungUp s).controller = s.controller ∧
      ((hungUp s).view = .callEnded ∨ (hungUp s).view = .callHub)) :
    Stage user (asked + 1) (app.hangUp o hungUp) (server.callHangup user : Outcome Sdp).server ∧
      (app.hangUp o hungUp).controller.events = app.controller.events := by
  have hends := hangUp_served hs h.token
  rw [RoomRtcApp.hangUp]
  cases hx : Control.hangUp o app.controller with
  | ok u c =>
    obtain ⟨hcall, hevents, htoken⟩ := hends.of_ok hx
    obtain ⟨hcontroller, hview⟩ := hkeeps { app with controller := c }
    have hfirst : asked = 0 := by
      by_contra hne
      obtain hone | htwo : asked = 1 ∨ 2 ≤ asked := by omega
      · exact (h.once hone).2 hcall
      · exact (h.again htwo).2 hcall
    dsimp only
    rw [hcontroller]
    refine ⟨⟨?_, ?_, by omega, fun _ => ⟨hview, not_inCall_after hcall⟩, by omega⟩, hevents⟩
    · rw [hcontroller]
      dsimp only
      rw [hevents]
      exact h.queue
    · rw [hcontroller]
      exact htoken.trans h.token
  | error e c =>
    obtain ⟨hcall, rfl⟩ := hends.of_error hx
    have hlater : asked ≠ 0 := fun hzero => hcall (h.before hzero).2
    rw [server_after_refused hcall]
    exact ⟨⟨h.queue, h.token, by omega, by omega, fun _ => ⟨rfl, hcall⟩⟩, rfl⟩

/-- Behind the call the user can only go back to the hub. -/
theorem renderCurrentView_behind
    (hview : app.view = .callEnded ∨ app.view = .callHub ∨ app.view = .fatalError) (wait : ℕ)
    {click : Option Click} (hlogOut : click ≠ some .logOut) (hcall : ∀ username, click ≠ some (.call username)) :
    app.renderCurrentView o wait click = app ∨
      app.view = .callEnded ∧ app.renderCurrentView o wait click = { app with view := .callHub } := by
  unfold RoomRtcApp.renderCurrentView
  obtain hended | hhub | hfatal := hview
  · rw [hended]
    cases click with
    | none => exact .inl rfl
    | some click =>
      cases click with
      | backToHub => exact .inr ⟨rfl, rfl⟩
      | _ => exact .inl rfl
  · rw [hhub]
    cases click with
    | none => exact .inl rfl
    | some click =>
      cases click with
      | logOut => exact absurd rfl hlogOut
      | call username => exact absurd rfl (hcall username)
      | _ => exact .inl rfl
  · rw [hfatal]
    cases click with
    | none => exact .inl rfl
    | some click => exact .inl rfl


variable {move : RoomRtcApp.AppMove} {u : Unit}

/-- What comes of a move: the stage stays, with as many ends waiting, or one more request has gone to the
server, for an end that waited or for a click. -/
inductive Outcomes (user : Str) (asked : ℕ) (app : RoomRtcApp) (server : OperatingServer) (move : RoomRtcApp.AppMove)
    (app' : RoomRtcApp) : Prop
  | stays (hasks : app.asksHangUp move = false) (hclicks : app.clicksEnd move = false)
    (hstage : Stage user asked app' server) (hpending : pending app' = pending app)
  | asks (hasks : app.asksHangUp move = true)
    (hstage : Stage user (asked + 1) app' (server.callHangup user : Outcome Sdp).server)
    (hpending : pending app' + (if app.clicksEnd move then 0 else 1) = pending app)

theorem pending_of_events (h : app'.controller.events = app.controller.events) : pending app' = pending app := by
  rw [pending, pending, h]

theorem outcomes_same (h : Stage user asked app server) (hasks : app.asksHangUp move = false)
    (hclicks : app.clicksEnd move = false) (hsame : app.SameScreen app') :
    Outcomes user asked app server move app' := by
  obtain ⟨_, hevents, htoken⟩ := hsame.controller
  refine .stays hasks hclicks ?_ (pending_of_events hevents)
  exact h.of_same hsame.view htoken fun event hevent => .inl (hevents ▸ hevent)

theorem isQuiet_ne {event : AppEvent} (h : isQuiet event = true) : event ≠ .callEnded := by
  rintro rfl
  cases h

theorem handles_outcomes (h : Stage user asked app server) (hs : Serves server o)
    (hstep : app.step (.handles o) = some (app', u)) : Outcomes user asked app server (.handles o) app' := by
  obtain ⟨event, events, _, hevents, rfl⟩ := RoomRtcApp.step_handles hstep
  have hrest : Stage user asked { app with controller.events := events } server := by
    refine h.of_same rfl rfl fun e he => .inl ?_
    rw [hevents]
    exact List.mem_cons_of_mem _ he
  have hasks : app.asksHangUp (.handles o) = endsCall event := by
    rw [RoomRtcApp.asksHangUp, hevents]
    rfl
  obtain hquiet | rfl := h.queue event (hevents ▸ List.mem_cons_self ..)
  · have hends : endsCall event = false := by
      cases event with
      | callEnded | error => cases hquiet
      | _ => rfl
    have hkept : Stage user asked (RoomRtcApp.handleEvent o { app with controller.events := events } event) server ∧
        (RoomRtcApp.handleEvent o { app with controller.events := events } event).controller.events = events := by
      cases event with
      | localStatsUpdate | remoteStatsUpdate | remoteFileOffer | fileDownloadCompleted =>
        exact ⟨hrest.of_same rfl rfl fun e he => .inl he, rfl⟩
      | _ => cases hquiet
    refine .stays (hasks.trans hends) rfl hkept.1 ?_
    rw [pending, pending, hkept.2, hevents, List.count_cons_of_ne (isQuiet_ne hquiet)]
  · obtain ⟨hstage, hqueue⟩ := hrest.hangUp hs
      (fun s => { s with view := .callEnded }) fun s => ⟨rfl, .inl rfl⟩
    refine .asks hasks (hstage.of_same rfl rfl fun e he => .inl he) ?_
    have hleft : pending (RoomRtcApp.handleEvent o { app with controller.events := events } .callEnded) =
        events.count .callEnded := congrArg (List.count AppEvent.callEnded) hqueue
    rw [hleft, pending, hevents, List.count_cons_self]
    rfl

theorem draws_outcomes {wait : ℕ} {click : Option Click} (h : Stage user asked app server) (hs : Serves server o)
    (hlogOut : click ≠ some .logOut) (hnoCall : ∀ username, click ≠ some (.call username))
    (hstep : app.step (.draws o wait click) = some (app', u)) :
    Outcomes user asked app server (.draws o wait click) app' := by
  obtain ⟨_, rfl⟩ := RoomRtcApp.step_draws hstep
  obtain ⟨hcontroller, _⟩ := RoomRtcApp.showWarningPopup_controller app click
  have hwarned := RoomRtcApp.showWarningPopup_same app click
  have hview := hwarned.view
  have hshown : Stage user asked (app.showWarningPopup click) server := by
    refine h.of_same hview (by rw [hcontroller]) fun e he => .inl ?_
    rwa [hcontroller] at he
  have hsame : ∀ app₁, (app.showWarningPopup click).renderCurrentView o wait click = app₁ →
      (app.showWarningPopup click).SameScreen app₁ → (app.view.isCall && click == some .endCall) = false →
      Outcomes user asked app server (.draws o wait click)
        { (app.showWarningPopup click).renderCurrentView o wait click with part := .events } := by
    intro app₁ happ hsame₁ hno
    rw [happ]
    obtain ⟨hcontroller₁, hview₁, htimer₁, hstats₁⟩ := hwarned.trans hsame₁
    exact outcomes_same h hno hno ⟨hcontroller₁, hview₁, htimer₁, hstats₁⟩
  by_cases hcall : app.view.isCall = true
  · have hcall' : (app.showWarningPopup click).view.isCall = true := by rw [hview, hcall]
    cases click with
    | none =>
      refine hsame _ (RoomRtcApp.renderCurrentView_call hcall' wait .ok).1 (RoomRtcApp.sameScreen_refl _) ?_
      rw [hcall]
      rfl
    | some click =>
      have hrender := (RoomRtcApp.renderCurrentView_call (o := o) hcall' wait click).2
      by_cases hend : click = .endCall
      · subst hend
        have hyes : (app.view.isCall && some Click.endCall == some Click.endCall) = true := by
          rw [hcall]
          rfl
        obtain ⟨hstage, hevents⟩ := hshown.hangUp hs (fun s => { s.resetAfterCall with view := .callHub })
          fun s => ⟨rfl, .inr rfl⟩
        rw [hrender, RoomRtcApp.showCall_endCall]
        refine .asks hyes (hstage.of_same rfl rfl fun e he => .inl he) ?_
        rw [RoomRtcApp.clicksEnd, hyes, if_pos rfl, pending, pending]
        dsimp only
        rw [hevents, hcontroller]
        rfl
      · refine hsame _ hrender (RoomRtcApp.showCall_same hend) ?_
        rw [hcall, Bool.true_and, beq_eq_false_iff_ne]
        exact fun heq => hend (Option.some.inj heq)
  · have hno : (app.view.isCall && click == some .endCall) = false := by
      rw [Bool.not_eq_true] at hcall
      rw [hcall]
      rfl
    have hstages : app.view = .callEnded ∨ app.view = .callHub ∨ app.view = .fatalError := by
      obtain hzero | hone | htwo : asked = 0 ∨ asked = 1 ∨ 2 ≤ asked := by omega
      · exact absurd (h.before hzero).1 hcall
      · exact (h.once hone).1.imp id .inl
      · exact .inr (.inr (h.again htwo).1)
    obtain hstill | ⟨hended, hhub⟩ :=
      renderCurrentView_behind (o := o) (by rw [hview]; exact hstages) wait hlogOut hnoCall
    · exact hsame _ hstill (RoomRtcApp.sameScreen_refl _) hno
    · -- the hub comes after the end of the call
      rw [hhub]
      rw [hview] at hended
      have hone : asked = 1 := by
        obtain hzero | hone | htwo : asked = 0 ∨ asked = 1 ∨ 2 ≤ asked := by omega
        · exact absurd (h.before hzero).1 hcall
        · exact hone
        · cases hended.symm.trans (h.again htwo).1
      refine .stays hno hno ⟨hshown.queue, hshown.token,
        by omega, fun _ => ⟨.inr rfl, (h.once hone).2⟩, by omega⟩ ?_
      apply pending_of_events
      dsimp only
      rw [hcontroller]

theorem move_outcomes (h : Stage user asked app server) (halone : Alone server move)
    (hstep : app.step move = some (app', u)) : Outcomes user asked app server move app' := by
  cases move with
  | lowers => exact halone.elim
  | told username message =>
    cases hstep
    obtain rfl | ⟨name, status, rfl⟩ := halone
    · exact outcomes_same h rfl rfl ⟨⟨rfl, rfl, rfl⟩, rfl, rfl, rfl⟩
    · exact outcomes_same h rfl rfl ⟨⟨rfl, rfl, rfl⟩, rfl, rfl, rfl⟩
  | passes time =>
    cases hstep
    exact outcomes_same h rfl rfl ⟨⟨rfl, rfl, rfl⟩, rfl, rfl, rfl⟩
  | reports r =>
    cases hstep
    refine .stays rfl rfl (h.of_same rfl rfl fun event hevent => ?_) ?_
    · obtain hevent | hevent := List.mem_append.mp hevent
      · exact .inl hevent
      · rw [List.mem_singleton.mp hevent]
        exact .inr (.inl halone)
    · rw [pending, List.count_append,
        List.count_eq_zero.mpr fun hmem => isQuiet_ne halone (List.mem_singleton.mp hmem).symm]
      rfl
  | drained =>
    rw [RoomRtcApp.step] at hstep
    split at hstep
    · cases hstep
      exact outcomes_same h rfl rfl ⟨⟨rfl, rfl, rfl⟩, rfl, rfl, rfl⟩
    · cases hstep
  | manages o saved picked =>
    rw [RoomRtcApp.step] at hstep
    split at hstep
    · cases hstep
      obtain ⟨hcontroller, hview, htimer, hstats⟩ := RoomRtcApp.manageFiles_same o app saved picked
      exact outcomes_same h rfl rfl ⟨hcontroller, hview, htimer, hstats⟩
    · cases hstep
  | handles o => exact handles_outcomes h halone hstep
  | draws o wait click => exact draws_outcomes h halone.1 halone.2.1 halone.2.2 hstep


/-! ## The whole call -/

variable {retryLimit : ℕ} {s s' : CallEnding} {clicked : Bool}

theorem fromThread_kind (event : Transport.AppEvent) :
    (isQuiet (fromThread event) = true ∨ fromThread event = .callEnded) ∧
      (fromThread event = .callEnded ↔ event = .callEnded) := by
  cases event with
  | callEnded => exact ⟨.inr rfl, iff_of_true rfl rfl⟩
  | localStatsUpdate stats => exact ⟨.inl rfl, iff_of_false AppEvent.noConfusion Transport.AppEvent.noConfusion⟩
  | remoteStatsUpdate stats => exact ⟨.inl rfl, iff_of_false AppEvent.noConfusion Transport.AppEvent.noConfusion⟩

/-- The ends that wait or have been asked for are those that were sent or clicked. -/
def Balanced (user : Str) (clicks : ℕ) (s : CallEnding) : Prop :=
  ∃ asked, Stage user asked s.app s.server ∧ asked + pending s.app = s.reports + clicks

theorem step_thread {clicks : ℕ} {turn : CallTurn} (h : Balanced user clicks s)
    (hstep : s.step retryLimit (.thread turn) = some (s', clicked)) : clicked = false ∧ Balanced user clicks s' := by
  obtain ⟨asked, hstage, hbalance⟩ := h
  have hnew : some (s.afterTurn retryLimit turn, false) = some (s', clicked) := hstep
  obtain ⟨rfl, rfl⟩ := Prod.mk.inj (Option.some.inj hnew)
  refine ⟨rfl, asked, hstage.of_same rfl rfl fun event hevent => ?_, ?_⟩
  · obtain hevent | hevent := List.mem_append.mp hevent
    · exact .inl hevent
    · obtain ⟨sent, _, rfl⟩ := Option.map_eq_some_iff.mp (Option.mem_toList.mp hevent)
      exact .inr (fromThread_kind sent).1
  · have hreports := (callMachine_follows retryLimit s.threads turn _ _ rfl).reports
    have hsends := callMachine_event retryLimit s.threads turn
    have hcount : (((s.threads.step retryLimit turn).2.map fromThread).toList).count .callEnded =
        if s.threads.view.phase turn.thread = .sending then 1 else 0 := by
      rw [← if_congr hsends rfl rfl]
      cases (s.threads.step retryLimit turn).2 with
      | none => rfl
      | some event =>
        have hkind := (fromThread_kind event).2
        by_cases hended : event = .callEnded
        · rw [hended]
          rfl
        · rw [if_neg fun h => hended (Option.some.inj h), List.count_eq_zero]
          exact fun hmem => hended (hkind.mp (List.mem_singleton.mp hmem).symm)
    have hpending : pending (s.afterTurn retryLimit turn).app =
        pending s.app + if s.threads.view.phase turn.thread = .sending then 1 else 0 := by
      rw [pending, pending, ← hcount]
      exact List.count_append
    have hsent : (s.afterTurn retryLimit turn).reports =
        s.reports + if s.threads.view.phase turn.thread = .sending then 1 else 0 := hreports
    omega

theorem step_user {clicks : ℕ} {move : RoomRtcApp.AppMove} (h : Balanced user clicks s) (halone : Alone s.server move)
    (hstep : s.step retryLimit (.user move) = some (s', clicked)) :
    Balanced user (clicks + if clicked then 1 else 0) s' := by
  obtain ⟨asked, hstage, hbalance⟩ := h
  obtain ⟨⟨app, v⟩, happ, hnew⟩ := Option.map_eq_some_iff.mp hstep
  obtain ⟨rfl, rfl⟩ := Prod.mk.inj hnew
  have hreports : ∀ threads : CallThreads, threads = { s.threads with connected := app.connected } →
      threads.view.reports = s.reports := by
    rintro _ rfl
    rfl
  cases move_outcomes hstage halone happ with
  | stays hasks hclicks hstage' hpending =>
    refine ⟨asked, ?_, ?_⟩
    · rw [hasks]
      exact hstage'
    · rw [reports, hreports _ rfl, hclicks, hpending, hbalance]
      rfl
  | asks hasks hstage' hpending =>
    refine ⟨asked + 1, ?_, ?_⟩
    · rw [hasks, hstage.token]
      exact hstage'
    · rw [reports, hreports _ rfl]
      cases hclicks : s.app.clicksEnd move with
      | true =>
        rw [hclicks, if_pos rfl] at hpending
        rw [if_pos rfl]
        dsimp only
        omega
      | false =>
        rw [hclicks, if_neg Bool.false_ne_true] at hpending
        rw [if_neg Bool.false_ne_true]
        dsimp only
        omega

/-- A call as it begins: its screen is shown, the threads start, and the server has the user in a call. -/
structure Begins (user : Str) (s : CallEnding) : Prop where
  threads : s.threads = .start
  queue : ∀ event ∈ s.app.controller.events, isQuiet event = true
  token : s.app.controller.token = some user
  view : s.app.view.isCall = true
  inCall : InCall s.server.users user

theorem Begins.balanced (h : Begins user s) : Balanced user 0 s := by
  refine ⟨0, ⟨fun event hevent => .inl (h.queue event hevent), h.token,
    fun _ => ⟨h.view, h.inCall⟩, ?_, ?_⟩, ?_⟩
  · omega
  · omega
  · have hnone : s.reports = 0 := by
      rw [reports, h.threads]
      decide
    rw [hnone, pending, List.count_eq_zero.mpr fun hmem => isQuiet_ne (h.queue _ hmem) rfl]

end CallEnding
open CallEnding

/-- **Who asks twice.** Once all ends of a call have been handled, the user has the fatal error for a screen
if and only if there were at least two of them: threads that reported the end and a click on End Call
count alike. With none the call is still on the screen and on the server, and otherwise it is over there. -/
theorem fatal_error_iff (retryLimit : ℕ) {user : Str} {s t : CallEnding} (hbegins : s.Begins user)
    {moves : List EndingMove} {clicks : List Bool} (hr : (endingMachine retryLimit).run s moves = some (t, clicks))
    (hg : (endingMachine retryLimit).Guarded Undistracted s moves) (hhandled : .callEnded ∉ t.app.controller.events) :
    (t.app.view = .fatalError ↔ 2 ≤ t.reports + clicks.count true) ∧
      (t.app.view.isCall = true ↔ t.reports + clicks.count true = 0) ∧
      (InCall t.server.users user ↔ t.reports + clicks.count true = 0) := by
  have key : Balanced user (clicks.count true) t := by
    refine (endingMachine retryLimit).run_induction (fun _ clicks t => Balanced user (clicks.count true) t) ?_
      hbegins.balanced hg hr
    intro _ clicks t move t' clicked hbalanced halone hstep
    have hcount : (clicks ++ [clicked]).count true = clicks.count true + if clicked then 1 else 0 := by
      cases clicked <;> simp
    rw [hcount]
    cases move with
    | thread turn =>
      obtain ⟨rfl, hbalanced'⟩ := step_thread hbalanced hstep
      exact hbalanced'
    | user move =>
      have hmoves : t.step retryLimit (.user move) = some (t', clicked) := hstep
      exact step_user hbalanced halone hmoves
  obtain ⟨asked, hstage, hbalance⟩ := key
  rw [pending, List.count_eq_zero.mpr hhandled, Nat.add_zero] at hbalance
  rw [← hbalance]
  obtain hzero | hone | htwo : asked = 0 ∨ asked = 1 ∨ 2 ≤ asked := by omega
  · obtain ⟨hview, hcall⟩ := hstage.before hzero
    refine ⟨iff_of_false (fun hfatal => ?_) (by omega), iff_of_true hview hzero, iff_of_true hcall hzero⟩
    rw [hfatal] at hview
    cases hview
  · obtain ⟨hview, hcall⟩ := hstage.once hone
    refine ⟨iff_of_false (fun hfatal => ?_) (by omega), iff_of_false (fun hshown => ?_) (by omega),
      iff_of_false hcall (by omega)⟩
    · obtain hview | hview := hview
      · cases hfatal.symm.trans hview
      · cases hfatal.symm.trans hview
    · obtain hview | hview := hview
      · rw [hview] at hshown
        cases hshown
      · rw [hview] at hshown
        cases hshown
  · obtain ⟨hview, hcall⟩ := hstage.again htwo
    refine ⟨iff_of_true hview htwo, iff_of_false (fun hshown => ?_) (by omega), iff_of_false hcall (by omega)⟩
    rw [hview] at hshown
    cases hshown

/-! ## A click beside a goodbye -/

def aliceServer : OperatingServer where
  users := (∅ : Users).insert "alice".toList ((UserData.new "alice".toList "secret".toList .offline).updateStatus
    (.occupied "bob".toList))
  serverClientSocketAddress := ⟨127, 0, 0, 1, 8000⟩
  usersFile := []
  username := some "alice".toList

def aliceInCall : CallEnding where
  app := {
    view := .call "alice".toList "bob".toList
    controller := { Controller.new lanSession with
      token := some "alice".toList
      username := some "alice".toList
      loggedIn := true
      transport := ⟨true, true⟩ }
    usernameBuff := []
    passwordBuff := []
    warningMsg := none
    lastStats := none
    timeCallIncoming := none
    fileOffers := fun _ => none
    fileDownloads := fun _ => none
    fileSendRx := false
    fileSaveRx := none
    isMuted := false
    part := .events
    now := 0 }
  threads := .start
  server := aliceServer

theorem aliceInCall_begins : aliceInCall.Begins "alice".toList where
  threads := rfl
  queue := nofun
  token := rfl
  view := rfl
  inCall := ⟨"bob".toList, by decide +kernel⟩

/-- What the server answers as it stands. -/
def servedBy (server : OperatingServer) : Outside :=
  { lanOutside with
    server := fun
      | .callHangup token => .response (server.callHangup token : Outcome Sdp).response
      | _ => .unreadable }

theorem servedBy_serves (server : OperatingServer) : Serves server (servedBy server) where
  answers _ := rfl
  timeoutsCleared := rfl
  goodbyeSent := rfl
  bound := rfl
  cloned := rfl
  session := ⟨lanSession, rfl⟩

def hungUpServer : OperatingServer := (aliceServer.callHangup "alice".toList : Outcome Sdp).server

/-- Bob says goodbye: the report receiver finds the flag up, -/
def goodbyeSeen : List EndingMove :=
  List.replicate 3 (.thread (.reportReceiver (some Transport.RtcpPacket.byeKey) false)) ++
    [.user .drained, .user (.manages lanOutside none false)]

/-- and reports the end when Alice has clicked. -/
def goodbyeReported : List EndingMove :=
  List.replicate 2 (.thread (.reportReceiver (some Transport.RtcpPacket.byeKey) false))

def clickEnds : EndingMove := .user (.draws (servedBy aliceServer) 0 (some .endCall))

def endHandled : EndingMove := .user (.handles (servedBy hungUpServer))

theorem click_beside_goodbye : ∃ t clicks,
    (endingMachine 3).run aliceInCall (goodbyeSeen ++ [clickEnds] ++ goodbyeReported ++ [endHandled]) =
      some (t, clicks) ∧
      t.reports = 1 ∧ clicks.count true = 1 ∧ t.app.view = .fatalError := by
  have hfacts : ((endingMachine 3).run aliceInCall goodbyeSeen).bind (fun r =>
      ((endingMachine 3).run r.1 [clickEnds]).bind fun r' =>
        ((endingMachine 3).run r'.1 goodbyeReported).bind fun r'' =>
      ((endingMachine 3).run r''.1 [endHandled]).map fun t =>
        (t.1.reports, t.1.app.controller.events, r.2 ++ r'.2 ++ r''.2 ++ t.2)) =
      some (1, [], [false, false, false, false, false, true, false, false, false]) := by decide +kernel
  have hservers : ((endingMachine 3).run aliceInCall goodbyeSeen).bind (fun r =>
      ((endingMachine 3).run r.1 [clickEnds]).bind fun r' => ((endingMachine 3).run r'.1 goodbyeReported).map fun r'' =>
        (r.1.server, r''.1.server)) = some (aliceServer, hungUpServer) := rfl
  obtain ⟨⟨r, os⟩, hr, hfacts⟩ := Option.bind_eq_some_iff.mp hfacts
  obtain ⟨⟨r', os'⟩, hr', hfacts⟩ := Option.bind_eq_some_iff.mp hfacts
  obtain ⟨⟨r'', os''⟩, hr'', hfacts⟩ := Option.bind_eq_some_iff.mp hfacts
  obtain ⟨⟨t, ps⟩, ht, hfacts⟩ := Option.map_eq_some_iff.mp hfacts
  rw [hr, Option.bind_some, hr', Option.bind_some, hr''] at hservers
  obtain ⟨hserver, hserver'⟩ := Prod.mk.inj (Option.some.inj hservers)
  simp only [Prod.mk.injEq] at hfacts
  obtain ⟨hreports, hevents, houtputs⟩ := hfacts
  have hbefore := (endingMachine 3).run_append hr hr'
  have hreported := (endingMachine 3).run_append hbefore hr''
  have hrun := (endingMachine 3).run_append hreported ht
  have hguarded : (endingMachine 3).Guarded Undistracted aliceInCall
      (goodbyeSeen ++ [clickEnds] ++ goodbyeReported ++ [endHandled]) := by
    rw [(endingMachine 3).guarded_concat hreported]
    refine ⟨(endingMachine 3).guarded_append_intro (((endingMachine 3).guarded_concat hr).mpr ⟨?_, ?_⟩) ?_, ?_⟩
    · exact ⟨trivial, fun _ _ _ => ⟨trivial, fun _ _ _ => ⟨trivial, fun _ _ _ => ⟨trivial, fun _ _ _ =>
        ⟨trivial, fun _ _ _ => trivial⟩⟩⟩⟩⟩
    · refine ⟨?_, nofun, nofun⟩
      rw [show r.server = aliceServer from hserver]
      exact servedBy_serves aliceServer
    · exact fun _ _ _ => ⟨trivial, fun _ _ _ => ⟨trivial, fun _ _ _ => trivial⟩⟩
    · change Serves r''.server (servedBy hungUpServer)
      rw [show r''.server = hungUpServer from hserver']
      exact servedBy_serves hungUpServer
  obtain ⟨hfatal, _⟩ := fatal_error_iff 3 aliceInCall_begins hrun hguarded (by rw [hevents]; nofun)
  have hclicks : (os ++ os' ++ os'' ++ ps).count true = 1 := by
    rw [houtputs]
    rfl
  refine ⟨t, _, hrun, hreports, hclicks, hfatal.mpr ?_⟩
  rw [hreports, hclicks]

end RoomRtc.Ui
