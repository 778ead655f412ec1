import RoomRtc.Foundations.CheckThenSet
import RoomRtc.Transport.RtcpPacket

/-! The background threads of a call, which share the flag `connected`: the RTP receiver
(`transport/rtp/receiver.rs`), the RTCP report sender and the RTCP report receiver
(`transport/rtcp/report_handler.rs`), and the remote frame pipeline (`media/media_pipeline.rs`).
Every load and store of the flag and every event is a step of its own. When exactly one
`CallEnded` goes out. -/
namespace RoomRtc.Transport
open CheckThenSet
set_option autoImplicit false

/-- The events of these threads; a send to a closed channel is ignored by all of them. -/
inductive AppEvent where
  | callEnded
  | localStatsUpdate (stats : CallStats)
  | remoteStatsUpdate (stats : CallStats)
deriving DecidableEq, Repr

/-! ## Receiving a report -/

/-- `silent`: more than the limit has passed since the last report. -/
def handleRtcpReportReception (buf : List UInt8) (silent : Bool) : Except RtcpError (Option AppEvent) :=
  match RtcpPacket.fromBytes buf with
  | some (.senderReport stats) => .ok (some (.remoteStatsUpdate { remoteSender := stats }))
  | some (.receiverReport stats) => .ok (some (.remoteStatsUpdate { remoteReceiver := stats }))
  | some .goodbye => .error .goodbyeReceived
  | some _ => .error .unexpectedMessage
  | none => if silent then .error .timedOut else .ok none

/-- `received` is what `recv_from` brought, nothing if it failed or timed out. -/
def tryReceiveReport (received : Option (List UInt8)) (silent : Bool) : Except RtcpError (Option AppEvent) :=
  match received with
  | some buf => handleRtcpReportReception buf silent
  | none => if silent then .error .timedOut else .ok none

/-! ## The loops -/

/-- Where a thread stands: in its loop, or on the way out that all of them have in common. -/
inductive Progress (loop : Type) where
  | inLoop (p : loop)
  | finalCheck
  | finalStore
  | finalSend
  | done (reported : Bool)
deriving DecidableEq, Repr

/-- The flag and the event that a step leaves behind, and where the thread stands then. -/
structure After (loop : Type) where
  connected : Bool
  point : Progress loop
  event : Option AppEvent := none

/-- The way out: `if connected.load() { connected.store(false); event_tx.send(CallEnded) }`. -/
def wayOut {loop : Type} (connected : Bool) : Progress loop → After loop
  | .finalCheck => ⟨connected, if connected then .finalStore else .done false, none⟩
  | .finalStore => ⟨false, .finalSend, none⟩
  | .finalSend => ⟨connected, .done true, some .callEnded⟩
  | p => ⟨connected, p, none⟩

inductive RtpReceiverPoint where
  | loopCheck
  | receive
  | receiveCheck
  | goodbye
  | forward
deriving DecidableEq, Repr

/-- What `recv_from` gives the RTP receiver. -/
inductive Received where
  | data
  | wouldBlock
  | failed
deriving DecidableEq, Repr

/-- `RtpReceiver::start` with `receive`; `forwarded` says whether the channel takes the data. -/
def RtpReceiverPoint.step (received : Received) (forwarded connected : Bool) :
    RtpReceiverPoint → After RtpReceiverPoint
  | .loopCheck => ⟨connected, if connected then .inLoop .receive else .finalCheck, none⟩
  | .receive =>
    match received with
    | .data => ⟨connected, .inLoop .forward, none⟩
    | .wouldBlock => ⟨connected, .inLoop .receiveCheck, none⟩
    | .failed => ⟨connected, .inLoop .goodbye, none⟩
  | .receiveCheck => ⟨connected, if connected then .inLoop .receive else .finalCheck, none⟩
  -- whatever comes of the lock and of `report_goodbye`, `receive` returns an error
  | .goodbye => ⟨connected, .finalCheck, none⟩
  | .forward => ⟨connected, if forwarded then .inLoop .loopCheck else .finalCheck, none⟩

inductive ReportSenderPoint where
  | loopCheck
  | gatherLocalStats
  | sendRtcpReports (senderStats : SenderStats) (receiverStats : ReceiverStats)
  | storeFalse
  | localUpdate (senderStats : SenderStats) (receiverStats : ReceiverStats)
deriving DecidableEq, Repr

/-- The thread of `start_report_sender`. `stats` is nothing when a lock is poisoned, and `sent` says
whether both reports went out. -/
def ReportSenderPoint.step (stats : Option (SenderStats × ReceiverStats)) (sent connected : Bool) :
    ReportSenderPoint → After ReportSenderPoint
  | .loopCheck => ⟨connected, if connected then .inLoop .gatherLocalStats else .finalCheck, none⟩
  | .gatherLocalStats =>
    match stats with
    | none => ⟨connected, .finalCheck, none⟩
    | some (senderStats, receiverStats) => ⟨connected, .inLoop (.sendRtcpReports senderStats receiverStats), none⟩
  | .sendRtcpReports senderStats receiverStats =>
    ⟨connected, .inLoop (if sent then .localUpdate senderStats receiverStats else .storeFalse), none⟩
  | .storeFalse => ⟨false, .finalCheck, none⟩
  | .localUpdate senderStats receiverStats =>
    ⟨connected, .inLoop .loopCheck,
      some (.localStatsUpdate { localSender := senderStats, localReceiver := receiverStats })⟩

inductive ReportReceiverPoint where
  | loopCheck (timeoutsTriggered : ℕ)
  | tryReceiveReport (timeoutsTriggered : ℕ)
deriving DecidableEq, Repr

/-- `run_report_receiver_loop` -/
def ReportReceiverPoint.step (retryLimit : ℕ) (received : Option (List UInt8)) (silent connected : Bool) :
    ReportReceiverPoint → After ReportReceiverPoint
  | .loopCheck timeoutsTriggered =>
    ⟨connected,
      if timeoutsTriggered < retryLimit ∧
      connected then .inLoop (.tryReceiveReport timeoutsTriggered) else .finalCheck,
      none⟩
  | .tryReceiveReport timeoutsTriggered =>
    match Transport.tryReceiveReport received silent with
    | .ok event => ⟨connected, .inLoop (.loopCheck 0), event⟩
    | .error .goodbyeReceived => ⟨connected, .finalCheck, none⟩
    | .error _ => ⟨connected, .inLoop (.loopCheck (timeoutsTriggered + 1)), none⟩

inductive FramePipelinePoint where
  | loopCheck
  | recv
  | popFrame
deriving DecidableEq, Repr

/-- `run_frame_pipeline_loop`. `packet` says whether the channel still gives a packet, `refused`
whether a whole frame was decoded and the other side no longer takes it. -/
def FramePipelinePoint.step (packet refused connected : Bool) : FramePipelinePoint → After FramePipelinePoint
  | .loopCheck => ⟨connected, if connected then .inLoop .recv else .finalCheck, none⟩
  | .recv => ⟨connected, if packet then .inLoop .popFrame else .finalCheck, none⟩
  | .popFrame => ⟨connected, if refused then .finalCheck else .inLoop .loopCheck, none⟩

/-- One step of a thread with the loop step `step`. -/
def threadStep {loop : Type} (step : Bool → loop → After loop) (connected : Bool) : Progress loop → After loop
  | .inLoop p => step connected p
  | p => wayOut connected p

/-! ## All threads of a call -/

inductive CallThread where
  | rtpReceiver
  | reportSender
  | reportReceiver
  | framePipeline
deriving DecidableEq, Repr

instance : Fintype CallThread where
  elems := {.rtpReceiver, .reportSender, .reportReceiver, .framePipeline}
  complete t := by cases t <;> simp

structure CallThreads where
  connected : Bool
  rtpReceiver : Progress RtpReceiverPoint
  reportSender : Progress ReportSenderPoint
  reportReceiver : Progress ReportReceiverPoint
  framePipeline : Progress FramePipelinePoint
deriving DecidableEq, Repr

/-- Whose step it is, with what the sockets, channels, locks and clocks answer. -/
inductive CallTurn where
  | rtpReceiver (received : Received) (forwarded : Bool)
  | reportSender (stats : Option (SenderStats × ReceiverStats)) (sent : Bool)
  | reportReceiver (received : Option (List UInt8)) (silent : Bool)
  | framePipeline (packet refused : Bool)
deriving DecidableEq, Repr

def CallTurn.thread : CallTurn → CallThread
  | rtpReceiver _ _ => .rtpReceiver
  | reportSender _ _ => .reportSender
  | reportReceiver _ _ => .reportReceiver
  | framePipeline _ _ => .framePipeline

namespace CallThreads

/-- All threads at the head of their loops, with the call connected. -/
def start : CallThreads where
  connected := true
  rtpReceiver := .inLoop .loopCheck
  reportSender := .inLoop .loopCheck
  reportReceiver := .inLoop (.loopCheck 0)
  framePipeline := .inLoop .loopCheck

def step (retryLimit : ℕ) (s : CallThreads) : CallTurn → CallThreads × Option AppEvent
  | .rtpReceiver received forwarded =>
    let a := threadStep (RtpReceiverPoint.step received forwarded) s.connected s.rtpReceiver
    ({ s with connected := a.connected, rtpReceiver := a.point }, a.event)
  | .reportSender stats sent =>
    let a := threadStep (ReportSenderPoint.step stats sent) s.connected s.reportSender
    ({ s with connected := a.connected, reportSender := a.point }, a.event)
  | .reportReceiver received silent =>
    let a := threadStep (ReportReceiverPoint.step retryLimit received silent) s.connected s.reportReceiver
    ({ s with connected := a.connected, reportReceiver := a.point }, a.event)
  | .framePipeline packet refused =>
    let a := threadStep (FramePipelinePoint.step packet refused) s.connected s.framePipeline
    ({ s with connected := a.connected, framePipeline := a.point }, a.event)

end CallThreads

/-- The threads of one call in any order, with the events they send. -/
def callMachine (retryLimit : ℕ) : Machine CallThreads CallTurn (Option AppEvent) where
  step s turn := some (s.step retryLimit turn)

/-! ## The threads as threads that check and then set -/

/-- `lowers` tells the points of the loop at which the flag is taken down. -/
def Progress.phase {loop : Type} (lowers : loop → Bool) : Progress loop → CheckThenSet.Phase
  | .inLoop p => if lowers p then .lowering else .working
  | .finalCheck => .checking
  | .finalStore => .storing
  | .finalSend => .sending
  | .done reported => .done reported

def ReportSenderPoint.lowers : ReportSenderPoint → Bool
  | .storeFalse => true
  | _ => false

def CallThreads.view (s : CallThreads) : Board CallThread where
  flag := s.connected
  phase
    | .rtpReceiver => s.rtpReceiver.phase fun _ => false
    | .reportSender => s.reportSender.phase ReportSenderPoint.lowers
    | .reportReceiver => s.reportReceiver.phase fun _ => false
    | .framePipeline => s.framePipeline.phase fun _ => false

/-- A loop that takes the flag down only where it says so, and reports nothing. -/
structure LoopSound {loop : Type} (lowers : loop → Bool) (step : Bool → loop → After loop) : Prop where
  connected : ∀ connected p, (step connected p).connected = if lowers p then false else connected
  early : ∀ connected p, ((step connected p).point.phase lowers).early = true
  event : ∀ connected p, (step connected p).event ≠ some .callEnded

section
variable {loop : Type} {lowers : loop → Bool} {step : Bool → loop → After loop}

theorem turn_threadStep {τ : Type} [DecidableEq τ] (h : LoopSound lowers step) {b b' : Board τ} {t : τ}
    {p : Progress loop} (hp : b.phase t = p.phase lowers) (hflag : b'.flag = (threadStep step b.flag p).connected)
    (hself : b'.phase t = (threadStep step b.flag p).point.phase lowers)
    (hothers : ∀ u, u ≠ t → b'.phase u = b.phase u) :
    Turn t b b' := by
  have hb' : b' = ⟨(threadStep step b.flag p).connected,
      Function.update b.phase t ((threadStep step b.flag p).point.phase lowers)⟩ :=
    Board.ext hflag (Function.eq_update_iff.mpr ⟨hself, hothers⟩)
  rw [hb']
  clear hb' hflag hself hothers
  cases p with
  | inLoop q =>
    rw [Progress.phase] at hp
    cases hq : lowers q with
    | true =>
      rw [hq, if_pos rfl] at hp
      rw [threadStep, h.connected, hq, if_pos rfl]
      exact .lower _ hp (h.early b.flag q)
    | false =>
      rw [hq, if_neg (by simp)] at hp
      rw [threadStep, h.connected, hq, if_neg (by simp)]
      exact .work _ hp (h.early b.flag q)
  | finalCheck =>
    cases hf : b.flag with
    | true =>
      have hturn := Turn.pass hp hf
      rw [hf] at hturn
      exact hturn
    | false =>
      have hturn := Turn.leave hp hf
      rw [hf] at hturn
      exact hturn
  | finalStore => exact .store hp
  | finalSend => exact .send hp
  | done r =>
    have hsame : Function.update b.phase t (.done r) = b.phase := by
      rw [show CheckThenSet.Phase.done r = b.phase t from hp.symm, Function.update_eq_self]
    show Turn t b ⟨b.flag, Function.update b.phase t (.done r)⟩
    rw [hsame]
    exact .idle r hp

theorem event_threadStep (h : LoopSound lowers step) (connected : Bool) (p : Progress loop) :
    (threadStep step connected p).event = some .callEnded ↔ p.phase lowers = .sending := by
  cases p with
  | inLoop q =>
    refine ⟨fun he => absurd he (h.event connected q), fun he => ?_⟩
    rw [Progress.phase] at he
    split at he <;> cases he
  | finalSend => simp [threadStep, wayOut, Progress.phase]
  | finalCheck | finalStore | done r => simp [threadStep, wayOut, Progress.phase]

end

theorem rtpReceiver_sound (received : Received) (forwarded : Bool) :
    LoopSound (fun _ => false) (RtpReceiverPoint.step received forwarded) := by
  constructor
  · intro connected p
    cases p <;> cases received <;> rfl
  · intro connected p
    cases p <;> cases received <;> cases forwarded <;> cases connected <;> rfl
  · intro connected p
    cases p <;> cases received <;> simp [RtpReceiverPoint.step]

theorem reportSender_sound (stats : Option (SenderStats × ReceiverStats)) (sent : Bool) :
    LoopSound ReportSenderPoint.lowers (ReportSenderPoint.step stats sent) := by
  constructor
  · intro connected p
    cases p <;> cases stats <;> rfl
  · intro connected p
    cases p <;> cases stats <;> cases sent <;> cases connected <;> rfl
  · intro connected p
    cases p <;> cases stats <;> simp [ReportSenderPoint.step]

/-- A report is no end of the call. -/
theorem tryReceiveReport_event {received : Option (List UInt8)} {silent : Bool} {event : Option AppEvent}
    (h : tryReceiveReport received silent = .ok event) : event ≠ some .callEnded := by
  unfold tryReceiveReport at h
  split at h
  · unfold handleRtcpReportReception at h
    split at h
    · cases h
      simp
    · cases h
      simp
    · cases h
    · cases h
    · cases silent <;> cases h
      simp
  · cases silent <;> cases h
    simp

theorem reportReceiver_sound (retryLimit : ℕ) (received : Option (List UInt8)) (silent : Bool) :
    LoopSound (fun _ => false) (ReportReceiverPoint.step retryLimit received silent) := by
  have hcases : ∀ connected timeouts, ∃ p event,
      ReportReceiverPoint.step retryLimit received silent connected (.tryReceiveReport timeouts) =
        ⟨connected, p, event⟩ ∧ (p.phase fun _ => false).early = true ∧ event ≠ some .callEnded := by
    intro connected timeouts
    cases h : tryReceiveReport received silent with
    | ok event =>
      refine ⟨.inLoop (.loopCheck 0), event, ?_, rfl, tryReceiveReport_event h⟩
      simp [ReportReceiverPoint.step, h]
    | error e =>
      cases e with
      | goodbyeReceived => exact ⟨.finalCheck, none, by simp [ReportReceiverPoint.step, h], rfl, by simp⟩
      | timedOut | unexpectedMessage =>
        exact ⟨.inLoop (.loopCheck (timeouts + 1)), none, by simp [ReportReceiverPoint.step, h], rfl, by simp⟩
  constructor
  · intro connected p
    cases p with
    | loopCheck timeouts => rfl
    | tryReceiveReport timeouts =>
      obtain ⟨p, event, h, _, _⟩ := hcases connected timeouts
      rw [h]
      rfl
  · intro connected p
    cases p with
    | loopCheck timeouts =>
      unfold ReportReceiverPoint.step
      dsimp only
      split <;> rfl
    | tryReceiveReport timeouts =>
      obtain ⟨p, event, h, hearly, _⟩ := hcases connected timeouts
      rw [h]
      exact hearly
  · intro connected p
    cases p with
    | loopCheck timeouts => simp [ReportReceiverPoint.step]
    | tryReceiveReport timeouts =>
      obtain ⟨p, event, h, _, hevent⟩ := hcases connected timeouts
      rw [h]
      exact hevent

theorem framePipeline_sound (packet refused : Bool) :
    LoopSound (fun _ => false) (FramePipelinePoint.step packet refused) := by
  constructor
  · intro connected p
    cases p <;> rfl
  · intro connected p
    cases p <;> cases packet <;> cases refused <;> cases connected <;> rfl
  · intro connected p
    cases p <;> simp [FramePipelinePoint.step]

theorem callMachine_follows (retryLimit : ℕ) :
    Follows CallThreads.view CallTurn.thread (callMachine retryLimit) := by
  intro s turn s' o hstep
  obtain ⟨rfl, rfl⟩ := Prod.mk.inj (Option.some.inj hstep)
  cases turn with
  | rtpReceiver received forwarded =>
    apply turn_threadStep (rtpReceiver_sound received forwarded) rfl rfl rfl
    intro t ht
    cases t with
    | rtpReceiver => exact absurd rfl ht
    | _ => rfl
  | reportSender stats sent =>
    apply turn_threadStep (reportSender_sound stats sent) rfl rfl rfl
    intro t ht
    cases t with
    | reportSender => exact absurd rfl ht
    | _ => rfl
  | reportReceiver received silent =>
    apply turn_threadStep (reportReceiver_sound retryLimit received silent) rfl rfl rfl
    intro t ht
    cases t with
    | reportReceiver => exact absurd rfl ht
    | _ => rfl
  | framePipeline packet refused =>
    apply turn_threadStep (framePipeline_sound packet refused) rfl rfl rfl
    intro t ht
    cases t with
    | framePipeline => exact absurd rfl ht
    | _ => rfl

theorem callMachine_event (retryLimit : ℕ) (s : CallThreads) (turn : CallTurn) :
    (s.step retryLimit turn).2 = some .callEnded ↔ s.view.phase turn.thread = .sending := by
  cases turn with
  | rtpReceiver received forwarded => exact event_threadStep (rtpReceiver_sound received forwarded) _ _
  | reportSender stats sent => exact event_threadStep (reportSender_sound stats sent) _ _
  | reportReceiver received silent => exact event_threadStep (reportReceiver_sound retryLimit received silent) _ _
  | framePipeline packet refused => exact event_threadStep (framePipeline_sound packet refused) _ _

/-! ## The end of the call -/

def CallThreads.Finished (s : CallThreads) : Prop := ∀ t, ∃ reported, s.view.phase t = .done reported

/-- Of these threads one is to report, and a failed report must not take the flag down before one
has found it up. -/
def Unhurried (s : CallThreads) (turn : CallTurn) : Prop := Orderly s.view turn.thread

/-- **When the end of a call is reported exactly once.** In every run of the four threads that ends
with all of them finished and the flag taken down, exactly one `CallEnded` was sent if and only if
no thread found the flag up at its last check while another was already past its own, and the
report sender took the flag down after a failed report only when some thread was. -/
theorem call_ended_once_iff (retryLimit : ℕ) {turns : List CallTurn} {s : CallThreads}
    {events : List (Option AppEvent)}
    (hr : (callMachine retryLimit).run CallThreads.start turns = some (s, events)) (hfinished : s.Finished)
    (hset : s.connected = false) :
    events.count (some .callEnded) = 1 ↔ (callMachine retryLimit).Guarded Unhurried CallThreads.start turns := by
  have hcount : ∀ es : List (Option AppEvent),
      (es.map fun e => if e = some .callEnded then 1 else 0).sum = es.count (some .callEnded) := by
    intro es
    induction es with
    | nil => rfl
    | cons e es ih => simp [List.count_cons, ih, Nat.add_comm]
  rw [← hcount]
  refine reported_once_iff (callMachine_follows retryLimit) ?_ hr rfl ?_ hfinished hset
  · intro s turn s' o hstep
    have ho : o = (s.step retryLimit turn).2 := (congrArg Prod.snd (Option.some.inj hstep)).symm
    rw [ho]
    exact if_congr (callMachine_event retryLimit s turn) rfl rfl
  · intro t
    cases t <;> rfl

/-! ### Three ends -/

/-- A thread at the head of its loop finds the flag down and leaves. -/
def leaveAll : List CallTurn :=
  [.rtpReceiver .wouldBlock true, .rtpReceiver .wouldBlock true, .reportSender none true, .reportSender none true,
    .framePipeline true false, .framePipeline true false]

/-- The peer says goodbye: the report receiver ends the call and the others leave. -/
def goodbyeEnd : List CallTurn :=
  List.replicate 5 (.reportReceiver (some RtcpPacket.byeKey) false) ++ leaveAll

/-- Sending a report fails: the report sender takes the flag down and everybody leaves. -/
def failedReportEnd : List CallTurn :=
  List.replicate 5 (.reportSender (some (⟨0, 0⟩, ⟨0, 0, 0⟩)) false) ++
    [.rtpReceiver .wouldBlock true, .rtpReceiver .wouldBlock true, .reportReceiver none false,
      .reportReceiver none false, .framePipeline true false, .framePipeline true false]

/-- The RTP socket fails while the peer says goodbye: both threads check before either stores. -/
def doubleEnd : List CallTurn :=
  List.replicate 4 (.rtpReceiver .failed true) ++ List.replicate 5 (.reportReceiver (some RtcpPacket.byeKey) false) ++
    List.replicate 2 (.rtpReceiver .failed true) ++
    [.reportSender none true, .reportSender none true, .framePipeline true false, .framePipeline true false]

instance (s : CallThreads) : Decidable s.Finished :=
  decidable_of_iff (∀ t, s.view.phase t = .done true ∨ s.view.phase t = .done false) (by
    simp [CallThreads.Finished, or_comm])

/-- The state and the events after turns, which always exist. -/
def afterTurns (retryLimit : ℕ) (turns : List CallTurn) : CallThreads × List (Option AppEvent) :=
  ((callMachine retryLimit).run CallThreads.start turns).getD (CallThreads.start, [])

theorem goodbye_reported_once : ((afterTurns 3 goodbyeEnd).2.count (some .callEnded) = 1) ∧
    (callMachine 3).Guarded Unhurried CallThreads.start goodbyeEnd := by
  have hone : (afterTurns 3 goodbyeEnd).2.count (some .callEnded) = 1 := by decide +kernel
  refine ⟨hone, ?_⟩
  exact (call_ended_once_iff 3 (s := (afterTurns 3 goodbyeEnd).1) (by decide +kernel) (by decide +kernel)
    (by decide +kernel)).mp hone

/-- After a failed report nobody reports the end of the call, and two threads that check at the
same time both do. -/
theorem unreported_or_twice :
    (∃ s events, (callMachine 3).run CallThreads.start failedReportEnd = some (s, events) ∧ s.Finished ∧
      s.connected = false ∧ events.count (some .callEnded) = 0) ∧
    ∃ s events, (callMachine 3).run CallThreads.start doubleEnd = some (s, events) ∧ s.Finished ∧
      s.connected = false ∧ events.count (some .callEnded) = 2 :=
  ⟨⟨_, _, rfl, by decide +kernel, by decide +kernel, by decide +kernel⟩,
    ⟨_, _, rfl, by decide +kernel, by decide +kernel, by decide +kernel⟩⟩

end RoomRtc.Transport
