import RoomRtc.File.ExchangeRuns

/-! What each move of the file offers changes of one channel, and what of everything else. -/
namespace RoomRtc.File
open Text Transport
set_option autoImplicit false

namespace Exchange
variable {dc : DataChannel} {c : Channel}

/-! ## One channel -/

/-- The listener takes messages from the channel that it reads. -/
theorem handleIncoming_channels (s : Exchange) (env : ListenerTurn) (dc : DataChannel) :
    (s.handleIncoming env).channels dc = s.channels dc ∨ (s.listener = .reading dc ∧
      ∃ c channel, s.channels dc = some c ∧ (s.handleIncoming env).channels dc = some (c.setChannel channel)) := by
  have hinsert : ∀ (s : Exchange) (dc' : DataChannel) (offerId : UInt32) (m : FileMetadata),
      (s.insertOffer dc' offerId m env).channels = s.channels := by
    intro s dc' offerId m
    unfold insertOffer
    cases env.locked with
    | false => rfl
    | true => cases env.eventSent <;> rfl
  unfold handleIncoming
  split
  · next dc' hl =>
    split
    · exact .inl rfl
    · next c _ hc =>
      split
      · exact .inl rfl
      · next message channel _ =>
        by_cases hdc : dc' = dc
        · subst hdc
          refine .inr ⟨hl, c, channel, hc, ?_⟩
          split
          · rw [hinsert]
            exact setChannel_self ..
          · exact setChannel_self ..
        · refine .inl ?_
          have hother := setChannel_other s (c.setChannel channel) (Ne.symm hdc)
          split
          · rw [hinsert]
            exact hother
          · exact hother
    · exact .inl rfl
  · exact .inl rfl

theorem acceptDataChannel_channels (s : Exchange) (dc' : DataChannel) (opened : Bool) (dc : DataChannel) :
    (s.acceptDataChannel dc' opened).channels dc = s.channels dc ∨ ∃ c stream, s.channels dc = some c ∧
      (s.acceptDataChannel dc' opened).channels dc = some { c with stream := stream } := by
  unfold acceptDataChannel
  split
  · next c _ hc =>
    by_cases hs : c.stream = .backlog
    · rw [if_pos hs]
      by_cases hdc : dc = dc'
      · subst hdc
        cases opened with
        | true => exact .inr ⟨c, .accepted, hc, setChannel_self ..⟩
        | false => exact .inr ⟨c, .failed, hc, setChannel_self ..⟩
      · cases opened with
        | true => exact .inl (setChannel_other s _ hdc)
        | false => exact .inl (setChannel_other s _ hdc)
    · rw [if_neg hs]
      exact .inl rfl
  · exact .inl rfl

theorem disconnected_channels (s : Exchange) : s.disconnected.channels = s.channels := by
  unfold disconnected
  split <;> rfl

/-- The acknowledgement, or its failure, is about a channel whose `send_file` waits for it. -/
theorem opened_channels (s : Exchange) (dc : DataChannel) :
    s.opened.channels dc = s.channels dc ∨ ∃ c, s.channels dc = some c ∧ c.worker = .opening ∧
      s.opened.channels dc = some { c with worker := .offering, offerId := some s.nextOfferId } := by
  unfold Exchange.opened
  cases hc : s.channels s.nextChannel with
  | none => exact .inl rfl
  | some c =>
    dsimp only
    by_cases hw : c.worker = .opening ∧ c.stream = .accepted
    · rw [if_pos hw]
      by_cases hdc : dc = s.nextChannel
      · subst hdc
        exact .inr ⟨c, hc, hw.1, setChannel_self ..⟩
      · exact .inl (setChannel_other s _ hdc)
    · rw [if_neg hw]
      exact .inl rfl

theorem openFailed_channels (s : Exchange) (dc : DataChannel) :
    s.openFailed.channels dc = s.channels dc ∨ ∃ c, s.channels dc = some c ∧ c.worker = .opening ∧
      s.openFailed.channels dc = some { c with worker := .done } := by
  unfold openFailed
  cases hc : s.channels s.nextChannel with
  | none => exact .inl rfl
  | some c =>
    dsimp only
    by_cases hw : c.worker = .opening
    · rw [if_pos hw]
      by_cases hdc : dc = s.nextChannel
      · subst hdc
        exact .inr ⟨c, hc, hw, setChannel_self ..⟩
      · exact .inl (setChannel_other s _ hdc)
    · rw [if_neg hw]
      exact .inl rfl

theorem sendFile_channels {s : Exchange} (m : FileMetadata) (content : Bytes) {openStream : Bool}
    (hopen : openStream = true → s.channels s.nextChannel = none) (dc : DataChannel) :
    (s.sendFile m content openStream).channels dc = s.channels dc ∨
      (s.channels dc = none ∧ (s.sendFile m content openStream).channels dc = some (.opening m content)) := by
  unfold sendFile
  cases openStream with
  | false => exact .inl rfl
  | true =>
    by_cases hdc : dc = s.nextChannel
    · subst hdc
      exact .inr ⟨hopen rfl, setChannel_self ..⟩
    · exact .inl (setChannel_other s _ hdc)

theorem work_channels (s : Exchange) (dc' : DataChannel) (env : WorkerTurn) (hc : s.channels dc = some c) :
    (s.work dc' env).channels dc = some (if dc' = dc then c.workerTurn (s.answersOn dc) env else c) := by
  unfold work
  by_cases hdc : dc' = dc
  · subst hdc
    rw [if_pos rfl, hc]
    exact setChannel_self ..
  · rw [if_neg hdc]
    cases s.channels dc' with
    | none => exact hc
    | some c' => exact (setChannel_other s _ (Ne.symm hdc)).trans hc

theorem download_channels (s : Exchange) (dc' : DataChannel) (env : ReceiverTurn) (hc : s.channels dc = some c) :
    (s.download dc' env).channels dc = some (if dc' = dc ∧ dc ∈ s.answering.downloads.map Prod.snd then
      { c with transfer := c.transfer.recvTurn env } else c) := by
  unfold download
  by_cases hdc : dc' = dc
  · subst hdc
    rw [hc]
    dsimp only
    by_cases hd : dc' ∈ s.answering.downloads.map Prod.snd
    · rw [if_pos hd, if_pos ⟨rfl, hd⟩]
      exact setChannel_self ..
    · rw [if_neg hd, if_neg fun h => hd h.2]
      exact hc
  · rw [if_neg fun h => hdc h.1]
    cases s.channels dc' with
    | none => exact hc
    | some c' =>
      dsimp only
      split
      · exact (setChannel_other s _ (Ne.symm hdc)).trans hc
      · exact hc

theorem work_absent (s : Exchange) (dc' : DataChannel) (env : WorkerTurn) (hc : s.channels dc = none) :
    (s.work dc' env).channels dc = none := by
  unfold work
  cases hdc : s.channels dc' with
  | none => exact hc
  | some c =>
    rw [setChannel_other s _ fun he => by rw [he, hdc] at hc; cases hc]
    exact hc

theorem download_absent (s : Exchange) (dc' : DataChannel) (env : ReceiverTurn) (hc : s.channels dc = none) :
    (s.download dc' env).channels dc = none := by
  unfold download
  cases hdc : s.channels dc' with
  | none => exact hc
  | some c =>
    dsimp only
    split
    · rw [setChannel_other s _ fun he => by rw [he, hdc] at hc; cases hc]
      exact hc
    · exact hc

/-! ## Everything else -/

theorem sendFile_rest (s : Exchange) (m : FileMetadata) (content : Bytes) (openStream : Bool) :
    ∃ channels, s.sendFile m content openStream = { s with channels := channels } := by
  cases openStream with
  | false => exact ⟨s.channels, rfl⟩
  | true => exact ⟨_, rfl⟩

theorem openFailed_rest (s : Exchange) : ∃ channels, s.openFailed = { s with channels := channels } := by
  unfold openFailed
  split
  · exact ⟨s.channels, rfl⟩
  · split
    · exact ⟨_, rfl⟩
    · exact ⟨s.channels, rfl⟩

theorem work_rest (s : Exchange) (dc : DataChannel) (env : WorkerTurn) :
    ∃ channels, s.work dc env = { s with channels := channels } := by
  unfold work
  split
  · exact ⟨s.channels, rfl⟩
  · exact ⟨_, rfl⟩

theorem download_rest (s : Exchange) (dc : DataChannel) (env : ReceiverTurn) :
    ∃ channels, s.download dc env = { s with channels := channels } := by
  unfold download
  split
  · exact ⟨s.channels, rfl⟩
  · split
    · exact ⟨_, rfl⟩
    · exact ⟨s.channels, rfl⟩

theorem acceptDataChannel_rest (s : Exchange) (dc : DataChannel) (opened : Bool) :
    ∃ channels listener, s.acceptDataChannel dc opened = { s with channels := channels, listener := listener } ∧
      (s.listener ≠ .accepting → listener = s.listener) := by
  unfold acceptDataChannel
  split
  · next hl _ =>
    split
    · cases opened with
      | true => exact ⟨_, _, rfl, fun hne => absurd hl hne⟩
      | false => exact ⟨_, s.listener, rfl, fun _ => rfl⟩
    · exact ⟨s.channels, s.listener, rfl, fun _ => rfl⟩
  · exact ⟨s.channels, s.listener, rfl, fun _ => rfl⟩

theorem disconnected_rest (s : Exchange) : ∃ listener, s.disconnected = { s with listener := listener } ∧
    (s.listener ≠ .accepting → listener = s.listener) := by
  unfold disconnected
  split
  · next hl => exact ⟨_, rfl, fun hne => absurd hl hne⟩
  · exact ⟨s.listener, rfl, fun _ => rfl⟩

theorem handleIncoming_rest (s : Exchange) (env : ListenerTurn) : ∃ channels listener pending events,
    s.handleIncoming env = { s with
      channels := channels
      listener := listener
      answering := { s.answering with pendingDataChannels := pending }
      events := events } := by
  unfold handleIncoming insertOffer
  split
  · split
    · exact ⟨s.channels, _, s.answering.pendingDataChannels, s.events, rfl⟩
    · split
      · exact ⟨s.channels, s.listener, s.answering.pendingDataChannels, s.events, rfl⟩
      · dsimp only
        split
        · cases env.locked with
          | false => exact ⟨_, _, s.answering.pendingDataChannels, s.events, rfl⟩
          | true =>
            cases env.eventSent with
            | true => exact ⟨_, _, _, _, rfl⟩
            | false => exact ⟨_, _, _, s.events, rfl⟩
        · exact ⟨_, s.listener, s.answering.pendingDataChannels, s.events, rfl⟩
    · exact ⟨s.channels, s.listener, s.answering.pendingDataChannels, s.events, rfl⟩
  · exact ⟨s.channels, s.listener, s.answering.pendingDataChannels, s.events, rfl⟩

theorem opened_rest (s : Exchange) : ∃ channels transport nextOfferId,
    s.opened = { s with channels := channels, transport := transport, nextOfferId := nextOfferId } ∧
      ((∀ c, s.channels s.nextChannel = some c → c.worker ≠ .opening) →
        transport = s.transport ∧ nextOfferId = s.nextOfferId) := by
  unfold Exchange.opened
  split
  · exact ⟨s.channels, s.transport, s.nextOfferId, rfl, fun _ => ⟨rfl, rfl⟩⟩
  · next c hc =>
    split
    · next hw => exact ⟨_, _, _, rfl, fun hne => absurd hw.1 (hne c hc)⟩
    · exact ⟨s.channels, s.transport, s.nextOfferId, rfl, fun _ => ⟨rfl, rfl⟩⟩

/-- Streams and ids are given out by the acknowledgement of a `send_file` that waits for it; a listener that
waits for no channel does nothing and tells nothing but in turns of its own. -/
theorem step_rest (s : Exchange) (move : ExchangeMove) :
    ((∀ c, s.channels s.nextChannel = some c → c.worker ≠ .opening) →
      (s.step move).transport = s.transport ∧ (s.step move).nextOfferId = s.nextOfferId) ∧
    (s.listener ≠ .accepting → (∀ env, move ≠ .handleIncoming env) →
      (s.step move).listener = s.listener ∧ (s.step move).events = s.events) := by
  cases move with
  | sendFile m content openStream =>
    obtain ⟨_, heq⟩ := sendFile_rest s m content openStream
    rw [step, heq]
    exact ⟨fun _ => ⟨rfl, rfl⟩, fun _ _ => ⟨rfl, rfl⟩⟩
  | opened =>
    obtain ⟨_, _, _, heq, hkeeps⟩ := opened_rest s
    rw [step, heq]
    exact ⟨hkeeps, fun _ _ => ⟨rfl, rfl⟩⟩
  | openFailed =>
    obtain ⟨_, heq⟩ := openFailed_rest s
    rw [step, heq]
    exact ⟨fun _ => ⟨rfl, rfl⟩, fun _ _ => ⟨rfl, rfl⟩⟩
  | work dc env =>
    obtain ⟨_, heq⟩ := work_rest s dc env
    rw [step, heq]
    exact ⟨fun _ => ⟨rfl, rfl⟩, fun _ _ => ⟨rfl, rfl⟩⟩
  | acceptDataChannel dc opened =>
    obtain ⟨_, _, heq, hkeeps⟩ := acceptDataChannel_rest s dc opened
    rw [step, heq]
    exact ⟨fun _ => ⟨rfl, rfl⟩, fun hbusy _ => ⟨hkeeps hbusy, rfl⟩⟩
  | disconnected =>
    obtain ⟨_, heq, hkeeps⟩ := disconnected_rest s
    rw [step, heq]
    exact ⟨fun _ => ⟨rfl, rfl⟩, fun hbusy _ => ⟨hkeeps hbusy, rfl⟩⟩
  | handleIncoming env =>
    obtain ⟨_, _, _, _, heq⟩ := handleIncoming_rest s env
    refine ⟨fun _ => ?_, fun _ hmove => absurd rfl (hmove env)⟩
    rw [step, heq]
    exact ⟨rfl, rfl⟩
  | download dc env =>
    obtain ⟨_, heq⟩ := download_rest s dc env
    rw [step, heq]
    exact ⟨fun _ => ⟨rfl, rfl⟩, fun _ _ => ⟨rfl, rfl⟩⟩
  | acceptFileOffer offerId steps => exact ⟨fun _ => ⟨rfl, rfl⟩, fun _ _ => ⟨rfl, rfl⟩⟩
  | rejectFileOffer offerId steps => exact ⟨fun _ => ⟨rfl, rfl⟩, fun _ _ => ⟨rfl, rfl⟩⟩

end Exchange
end RoomRtc.File
