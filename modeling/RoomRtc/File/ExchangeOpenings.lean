import RoomRtc.File.ExchangeTransfers

/-! A `send_file` whose opening fails. The stream it has opened stays, and as the next one would be on the same
stream, the file offers of that side are at an end; so are those of the peer's user, if its listener waits on
that stream for the offer. -/
namespace RoomRtc.File
open Text Transport
set_option autoImplicit false

namespace Exchange
variable {first : ℕ} {s : Exchange} {dc : DataChannel} {c c' : Channel}

/-- The next stream is there, and the `send_file` that opened it has returned its error. -/
structure Stuck (dc : DataChannel) (offerId : UInt32) (s : Exchange) : Prop where
  nextChannel : s.nextChannel = dc
  nextOfferId : s.nextOfferId = offerId
  channel : ∃ c, s.channels dc = some c ∧ c.offerId = none ∧ c.worker = .done

/-- The listener has taken that stream, or has stopped. -/
structure Deaf (dc : DataChannel) (events : List (UInt32 × FileMetadata)) (s : Exchange) : Prop where
  listener : s.listener = .reading dc ∨ s.listener = .stopped
  events : s.events = events

theorem done_step (hc : s.channels dc = some c) (hw : c.worker = .done) {move : ExchangeMove}
    (hopen : s.OpensNew move) : ∃ c', (s.step move).channels dc = some c' ∧ c'.offerId = c.offerId ∧
    c'.worker = .done := by
  have hself : ∃ c', some c = some c' ∧ c'.offerId = c.offerId ∧ c'.worker = .done := ⟨c, rfl, rfl, hw⟩
  rw [← hc] at hself
  cases move with
  | sendFile m content openStream =>
    obtain hsame | ⟨hnone, _⟩ := sendFile_channels m content hopen dc
    · rwa [← hsame] at hself
    · simp [hc] at hnone
  | opened =>
    obtain hsame | ⟨c', hc', hw', _⟩ := opened_channels s dc
    · rwa [← hsame] at hself
    · cases hc.symm.trans hc'
      simp [hw] at hw'
  | openFailed =>
    obtain hsame | ⟨c', hc', hw', _⟩ := openFailed_channels s dc
    · rwa [← hsame] at hself
    · cases hc.symm.trans hc'
      simp [hw] at hw'
  | work dc' env =>
    refine ⟨_, work_channels s dc' env hc, ?_⟩
    have hturn : c.workerTurn (s.answersOn dc) env = c := by simp only [Channel.workerTurn, hw]
    rw [hturn, ite_self]
    exact ⟨rfl, hw⟩
  | acceptDataChannel dc' opened =>
    obtain hsame | ⟨c', stream, hc', hnext⟩ := acceptDataChannel_channels s dc' opened dc
    · rwa [← hsame] at hself
    · cases hc.symm.trans hc'
      exact ⟨_, hnext, rfl, hw⟩
  | disconnected => exact ⟨c, (congrFun (disconnected_channels s) dc).trans hc, rfl, hw⟩
  | handleIncoming env =>
    obtain hsame | ⟨_, c', channel, hc', hnext⟩ := handleIncoming_channels s env dc
    · rwa [← hsame] at hself
    · cases hc.symm.trans hc'
      exact ⟨_, hnext, rfl, hw⟩
  | acceptFileOffer offerId steps => exact hself
  | rejectFileOffer offerId steps => exact hself
  | download dc' env =>
    refine ⟨_, download_channels s dc' env hc, ?_⟩
    split
    · exact ⟨rfl, hw⟩
    · exact ⟨rfl, hw⟩

theorem stuck_step {offerId : UInt32} (h : s.Stuck dc offerId) {move : ExchangeMove} (hopen : s.OpensNew move) :
    (s.step move).Stuck dc offerId := by
  obtain ⟨c, hc, hid, hw⟩ := h.channel
  obtain ⟨c', hc', hid', hw'⟩ := done_step hc hw hopen
  have hsame := (s.step_rest move).1 fun c₁ hc₁ => by
    rw [h.nextChannel] at hc₁
    cases hc.symm.trans hc₁
    simp [hw]
  refine ⟨?_, hsame.2.trans h.nextOfferId, c', hc', hid'.trans hid, hw'⟩
  rw [← h.nextChannel]
  unfold nextChannel
  rw [hsame.1]

/-- No message comes on a stream without an offer: the listener waits for one, or its read fails. -/
theorem deaf_listener (h : s.Inv first) (hc : s.channels dc = some c) (hid : c.offerId = none)
    {events : List (UInt32 × FileMetadata)} (hdeaf : s.Deaf dc events) (env : ListenerTurn) :
    (s.handleIncoming env).Deaf dc events := by
  obtain hl | hl := hdeaf.listener
  · have hempty : c.transfer.channel = [] := by
      cases hqueue : c.transfer.channel with
      | nil => rfl
      | cons message channel =>
        obtain ⟨⟨id, hsome, _⟩, _⟩ := (h.phase dc c hc).hears (h.reading dc hl) hqueue
        rw [hid] at hsome
        cases hsome
    unfold handleIncoming
    simp only [hl, hc]
    cases env.recv with
    | failed => exact ⟨.inr rfl, hdeaf.events⟩
    | closed => exact hdeaf
    | message =>
      simp only [hempty]
      exact hdeaf
  · have hstill : s.handleIncoming env = s := by simp only [handleIncoming, hl]
    rw [hstill]
    exact hdeaf

theorem deaf_step (h : s.Inv first) (hc : s.channels dc = some c) (hid : c.offerId = none)
    {events : List (UInt32 × FileMetadata)} (hdeaf : s.Deaf dc events) (move : ExchangeMove) :
    (s.step move).Deaf dc events := by
  by_cases hmove : ∃ env, move = .handleIncoming env
  · obtain ⟨env, rfl⟩ := hmove
    exact deaf_listener h hc hid hdeaf env
  · have hbusy : s.listener ≠ .accepting := by
      obtain hl | hl := hdeaf.listener <;> simp [hl]
    obtain ⟨hlistener, hevents⟩ := (s.step_rest move).2 hbusy fun env he => hmove ⟨env, he⟩
    refine ⟨?_, hevents.trans hdeaf.events⟩
    rw [hlistener]
    exact hdeaf.listener

theorem workerTurn_keeps (c : Channel) (answers : List FtpMessage) (env : WorkerTurn) :
    (c.workerTurn answers env).stream = c.stream ∧ (c.workerTurn answers env).offerId = c.offerId := by
  unfold Channel.workerTurn
  split
  · dsimp only
    split <;> exact ⟨rfl, rfl⟩
  · split
    · exact ⟨rfl, rfl⟩
    · exact ⟨rfl, rfl⟩
    · exact ⟨rfl, rfl⟩
    · dsimp only
      split <;> exact ⟨rfl, rfl⟩
  · exact ⟨rfl, rfl⟩
  · exact ⟨rfl, rfl⟩

/-- A stream without an offer that the listener has taken was so before, or the listener takes it with this move. -/
theorem accepted_before {move : ExchangeMove} (hopen : s.OpensNew move) (hc' : (s.step move).channels dc = some c')
    (hs : c'.stream = .accepted) (hid : c'.offerId = none) :
    (∃ c, s.channels dc = some c ∧ c.stream = .accepted ∧ c.offerId = none) ∨
    (s.step move).listener = .reading dc := by
  have hsame : (s.step move).channels dc = s.channels dc → (∃ c, s.channels dc = some c ∧ c.stream = .accepted ∧
      c.offerId = none) ∨ (s.step move).listener = .reading dc := fun he => .inl ⟨c', he ▸ hc', hs, hid⟩
  cases move with
  | sendFile m content openStream =>
    obtain he | ⟨_, he⟩ := sendFile_channels m content hopen dc
    · exact hsame he
    · cases he.symm.trans hc'
      cases hs
  | opened =>
    obtain he | ⟨_, _, _, he⟩ := opened_channels s dc
    · exact hsame he
    · cases he.symm.trans hc'
      cases hid
  | openFailed =>
    obtain he | ⟨c, hc, _, he⟩ := openFailed_channels s dc
    · exact hsame he
    · cases he.symm.trans hc'
      exact .inl ⟨c, hc, hs, hid⟩
  | work dc' env =>
    cases hc : s.channels dc with
    | none => cases (work_absent s dc' env hc).symm.trans hc'
    | some c =>
      cases (work_channels s dc' env hc).symm.trans hc'
      refine .inl ⟨c, rfl, ?_⟩
      split at hs
      · next hdc =>
        rw [if_pos hdc] at hid
        obtain ⟨hstream, hoffer⟩ := workerTurn_keeps c (s.answersOn dc) env
        exact ⟨hstream.symm.trans hs, hoffer.symm.trans hid⟩
      · next hdc =>
        rw [if_neg hdc] at hid
        exact ⟨hs, hid⟩
  | acceptDataChannel dc' opened =>
    by_cases hdc : dc = dc'
    · subst hdc
      rw [step, acceptDataChannel] at hc' ⊢
      split at hc'
      · next hl hc =>
        simp only [hc]
        split at hc'
        · next hbacklog =>
          rw [if_pos hbacklog]
          cases opened with
          | true => exact .inr rfl
          | false =>
            cases (setChannel_self ..).symm.trans hc'
            cases hs
        · exact .inl ⟨c', hc.symm.trans hc', hs, hid⟩
      · exact .inl ⟨c', hc', hs, hid⟩
    · refine hsame ?_
      rw [step, acceptDataChannel]
      split
      · split
        · cases opened with
          | true => exact setChannel_other s _ hdc
          | false => exact setChannel_other s _ hdc
        · rfl
      · rfl
  | disconnected => exact hsame (congrFun (disconnected_channels s) dc)
  | handleIncoming env =>
    obtain he | ⟨_, c, _, hc, he⟩ := handleIncoming_channels s env dc
    · exact hsame he
    · cases he.symm.trans hc'
      exact .inl ⟨c, hc, hs, hid⟩
  | acceptFileOffer offerId steps => exact hsame rfl
  | rejectFileOffer offerId steps => exact hsame rfl
  | download dc' env =>
    cases hc : s.channels dc with
    | none => cases (download_absent s dc' env hc).symm.trans hc'
    | some c =>
      cases (download_channels s dc' env hc).symm.trans hc'
      refine .inl ⟨c, rfl, ?_⟩
      split at hs
      · next hd =>
        rw [if_pos hd] at hid
        exact ⟨hs, hid⟩
      · next hd =>
        rw [if_neg hd] at hid
        exact ⟨hs, hid⟩

/-- The listener does not leave a stream that has no offer. -/
def Waits (s : Exchange) : Prop := ∀ dc c, s.channels dc = some c → c.stream = .accepted → c.offerId = none →
  s.listener = .reading dc ∨ s.listener = .stopped

theorem waits_run {isClient : Bool} {moves : List ExchangeMove} {os : List Unit} {t : Exchange}
    (hopen : exchangeMachine.Guarded OpensNew (new isClient) moves)
    (hrun : exchangeMachine.run (new isClient) moves = some (t, os)) : t.Waits := by
  have hfirst : (if isClient then 1 else 0) ≤ 1 := by cases isClient <;> decide
  refine (exchangeMachine.run_invariant (fun s => s.Inv (if isClient then 1 else 0) ∧ s.Waits)
    (fun s move s' o h hnew hstep => ?_) ⟨inv_new isClient, fun dc c hc => (by cases hc)⟩ hopen hrun).2
  cases hstep
  refine ⟨inv_step hfirst h.1 hnew, fun dc c' hc' hs hid => ?_⟩
  obtain ⟨c, hc, hs, hid⟩ | hl := accepted_before hnew hc' hs hid
  · exact (deaf_step h.1 hc hid ⟨h.2 dc c hc hs hid, rfl⟩ move).listener
  · exact .inl hl

/-- **One failed opening ends the offers.** Once a `send_file` has failed while it waited for the acknowledgement,
no later one of that side takes an id; and if the peer's listener had taken the stream by then, its user is told
of no further offer, not even of those that are on their way on other channels. -/
theorem failed_opening_ends_offers {isClient : Bool} {before moves : List ExchangeMove} {os ps : List Unit}
    {t : Exchange} (hopen : exchangeMachine.Guarded OpensNew (new isClient) (before ++ moves))
    (hbefore : exchangeMachine.run (new isClient) before = some (s, os))
    (hc : s.channels s.nextChannel = some c) (hid : c.offerId = none) (hw : c.worker = .done)
    (hrun : exchangeMachine.run s moves = some (t, ps)) :
    t.nextOfferId = s.nextOfferId ∧ (c.stream = .accepted → t.events = s.events) := by
  have hfirst : (if isClient then 1 else 0) ≤ 1 := by cases isClient <;> decide
  have hstart : s.Stuck s.nextChannel s.nextOfferId := ⟨rfl, rfl, c, hc, hid, hw⟩
  have hold := exchangeMachine.guarded_left hopen
  have hnew := exchangeMachine.guarded_append hopen hbefore
  constructor
  · refine (exchangeMachine.run_invariant (Stuck s.nextChannel s.nextOfferId)
      (fun s₁ move s₂ o h hopen hstep => ?_) hstart hnew hrun).nextOfferId
    cases hstep
    exact stuck_step h hopen
  · intro hs
    refine (exchangeMachine.run_invariant (fun u => u.Inv (if isClient then 1 else 0) ∧
        u.Stuck s.nextChannel s.nextOfferId ∧ u.Deaf s.nextChannel s.events)
      (fun s₁ move s₂ o h hopen hstep => ?_)
      ⟨inv_run hold hbefore, hstart, waits_run hold hbefore _ c hc hs hid, rfl⟩ hnew hrun).2.2.events
    cases hstep
    obtain ⟨c₁, hc₁, hid₁, _⟩ := h.2.1.channel
    exact ⟨inv_step hfirst h.1 hopen, stuck_step h.2.1 hopen, deaf_step h.1 hc₁ hid₁ h.2.2 move⟩

/-- The acknowledgement of a second file comes too late, and a third one is not offered any more. -/
theorem late_acknowledgement : ∃ s os t ps, exchangeMachine.run (new true) (oneAccepted ++
      [.sendFile ⟨3, "b".toList⟩ [3, 4, 5] true, .acceptDataChannel ⟨3⟩ true, .openFailed]) = some (s, os) ∧
    exchangeMachine.run s [.sendFile ⟨1, "c".toList⟩ [6] false, .opened,
      .handleIncoming ⟨.message, true, true⟩] = some (t, ps) ∧
    s.nextOfferId = 1 ∧ t.nextOfferId = 1 ∧ t.events = s.events := by
  obtain ⟨s, os, hbefore⟩ : ∃ s os, exchangeMachine.run (new true) (oneAccepted ++
      [.sendFile ⟨3, "b".toList⟩ [3, 4, 5] true, .acceptDataChannel ⟨3⟩ true, .openFailed]) = some (s, os) :=
    ⟨_, _, rfl⟩
  obtain ⟨t, ps, hrun⟩ := exchangeMachine.exists_run (fun s move => ⟨s.step move, (), rfl⟩) s
    [.sendFile ⟨1, "c".toList⟩ [6] false, .opened, .handleIncoming ⟨.message, true, true⟩]
  have hstart : ∃ c, s.channels s.nextChannel = some c ∧ c.offerId = none ∧ c.worker = .done ∧
      c.stream = .accepted ∧ s.nextOfferId = 1 := by
    cases hbefore
    exact ⟨_, rfl, rfl, rfl, rfl, rfl⟩
  obtain ⟨c, hc, hid, hw, hs, hone⟩ := hstart
  obtain ⟨hids, hevents⟩ := failed_opening_ends_offers (by decide +kernel) hbefore hc hid hw hrun
  exact ⟨s, os, t, ps, hbefore, hrun, hone, hids.trans hone, hevents hs⟩

end Exchange
end RoomRtc.File
