import RoomRtc.File.ExchangeSafety

/-! Runs of the file offers of a call. No byte of a file leaves its sender before the peer's user has accepted
the offer, nobody is asked or answered twice, no offer is taken for another, and a download that is reported
is the whole file just when its sender did not leave its loop early. -/
namespace RoomRtc.File
open Text Transport
set_option autoImplicit false

namespace Exchange

/-! ## Ids and streams -/

/-- The offers so far are numbered from 0, and the `n`-th is on the stream `first + 2 * n`. -/
structure Ids (first : ℕ) (s : Exchange) (offers : ℕ) : Prop where
  next : s.nextOfferId.toNat = offers
  room : offers ≤ 32768
  stream : s.transport.nextStreamId.toNat = (first + 2 * offers) % 65536
  offered : ∀ dc c offerId, s.channels dc = some c → c.offerId = some offerId →
    offerId.toNat < offers ∧ dc.streamId.toNat = first + 2 * offerId.toNat
  used : ∀ n < offers, ∃ dc c offerId, s.channels dc = some c ∧ c.offerId = some offerId ∧ offerId.toNat = n
  told : ∀ e ∈ s.events, e.1.toNat < offers

/-- What holds in every state. -/
structure Inv (first : ℕ) (s : Exchange) : Prop where
  phase : ∀ dc c, s.channels dc = some c → Phase (s.standing dc) (s.told c) c
  absent : ∀ dc, s.channels dc = none → (s.standing dc).Quiet
  reading : ∀ dc, s.listener = .reading dc → (s.standing dc).Quiet
  ids : ∃ offers, s.Ids first offers

variable {first offers : ℕ} {s : Exchange} {dc dc' : DataChannel} {c c' : Channel} {offerId : UInt32}

theorem dc_ext (h : dc.streamId.toNat = dc'.streamId.toNat) : dc = dc' := by
  cases dc
  cases dc'
  exact congrArg DataChannel.mk (UInt16.toNat_inj.mp h)

/-- Two channels with one id are one channel. -/
theorem Ids.unique (h : s.Ids first offers) (hc : s.channels dc = some c) (hc' : s.channels dc' = some c')
    (hid : c.offerId = some offerId) (hid' : c'.offerId = some offerId) : dc = dc' := by
  apply dc_ext
  rw [(h.offered dc c offerId hc hid).2, (h.offered dc' c' offerId hc' hid').2]

theorem told_congr (s : Exchange) (h : c'.offerId = c.offerId) : s.told c' = s.told c := by
  unfold told
  rw [h]

theorem setChannel_self (s : Exchange) (dc : DataChannel) (c : Channel) : (s.setChannel dc c).channels dc = some c :=
  Function.update_self ..

theorem setChannel_other (s : Exchange) (c : Channel) (h : dc' ≠ dc) :
    (s.setChannel dc c).channels dc' = s.channels dc' := Function.update_of_ne h ..

theorem Ids.setChannel (h : s.Ids first offers) (hc : s.channels dc = some c) (hid : c'.offerId = c.offerId) :
    (s.setChannel dc c').Ids first offers where
  next := h.next
  room := h.room
  stream := h.stream
  offered := by
    intro dc₁ c₁ offerId hc₁ hid₁
    by_cases hdc : dc₁ = dc
    · subst hdc
      rw [setChannel_self] at hc₁
      cases hc₁
      exact h.offered dc₁ c offerId hc (hid ▸ hid₁)
    · rw [setChannel_other s c' hdc] at hc₁
      exact h.offered dc₁ c₁ offerId hc₁ hid₁
  used := by
    intro n hn
    obtain ⟨dc₁, c₁, offerId, hc₁, hid₁, hn₁⟩ := h.used n hn
    by_cases hdc : dc₁ = dc
    · subst hdc
      rw [hc] at hc₁
      cases hc₁
      exact ⟨dc₁, c', offerId, setChannel_self s dc₁ c', hid.trans hid₁, hn₁⟩
    · exact ⟨dc₁, c₁, offerId, (setChannel_other s c' hdc).trans hc₁, hid₁, hn₁⟩
  told := h.told

/-! ## What a turn keeps -/

theorem inv_new (isClient : Bool) : (new isClient).Inv (if isClient then 1 else 0) where
  phase := fun _ _ h => by cases h
  absent := fun _ _ => ⟨rfl, rfl, fun _ h => by cases h⟩
  reading := fun _ h => by cases h
  ids := by
    refine ⟨0, rfl, Nat.zero_le _, ?_, ?_, ?_, ?_⟩
    · cases isClient <;> rfl
    · intro dc c offerId hc
      cases hc
    · exact fun n hn => absurd hn (Nat.not_lt_zero n)
    · intro e he
      cases he

theorem Inv.setChannel (h : s.Inv first) (hc : s.channels dc = some c) (hid : c'.offerId = c.offerId)
    (hphase : Phase (s.standing dc) (s.told c) c') : (s.setChannel dc c').Inv first where
  phase := by
    intro dc₁ c₁ hc₁
    by_cases hdc : dc₁ = dc
    · subst hdc
      rw [setChannel_self] at hc₁
      cases hc₁
      rw [← told_congr s hid] at hphase
      exact hphase
    · rw [setChannel_other s c' hdc] at hc₁
      exact h.phase dc₁ c₁ hc₁
  absent := by
    intro dc₁ hc₁
    by_cases hdc : dc₁ = dc
    · subst hdc
      rw [setChannel_self] at hc₁
      cases hc₁
    · rw [setChannel_other s c' hdc] at hc₁
      exact h.absent dc₁ hc₁
  reading := h.reading
  ids := by
    obtain ⟨offers, hids⟩ := h.ids
    exact ⟨offers, hids.setChannel hc hid⟩

theorem Inv.setListener (h : s.Inv first) {listener : Listener}
    (hl : ∀ dc, listener = .reading dc → (s.standing dc).Quiet) : Inv first { s with listener := listener } where
  phase := h.phase
  absent := h.absent
  reading := hl
  ids := by
    obtain ⟨offers, hids⟩ := h.ids
    exact ⟨offers, hids.next, hids.room, hids.stream, hids.offered, hids.used, hids.told⟩

theorem Inv.stopped (h : s.Inv first) : Inv first { s with listener := .stopped } :=
  h.setListener fun _ hl => by cases hl

theorem inv_sendFile (h : s.Inv first) (m : FileMetadata) (content : Bytes) {openStream : Bool}
    (hopen : openStream = true → s.channels s.nextChannel = none) : (s.sendFile m content openStream).Inv first := by
  unfold sendFile
  cases openStream with
  | false => exact h
  | true =>
    have hc := hopen rfl
    rw [if_pos rfl]
    have hquiet := h.absent s.nextChannel hc
    constructor
    · intro dc c' hc'
      by_cases hdc : dc = s.nextChannel
      · subst hdc
        rw [setChannel_self] at hc'
        cases hc'
        exact .silent hquiet rfl rfl rfl (.inl ⟨rfl, rfl⟩)
      · rw [setChannel_other s _ hdc] at hc'
        exact h.phase dc c' hc'
    · intro dc hc'
      by_cases hdc : dc = s.nextChannel
      · subst hdc
        exact hquiet
      · rw [setChannel_other s _ hdc] at hc'
        exact h.absent dc hc'
    · exact h.reading
    · obtain ⟨offers, hids⟩ := h.ids
      refine ⟨offers, hids.next, hids.room, hids.stream, ?_, ?_, hids.told⟩
      · intro dc c' offerId hc' hid
        by_cases hdc : dc = s.nextChannel
        · subst hdc
          rw [setChannel_self] at hc'
          cases hc'
          cases hid
        · rw [setChannel_other s _ hdc] at hc'
          exact hids.offered dc c' offerId hc' hid
      · intro n hn
        obtain ⟨dc, c', offerId, hc', hid, hn'⟩ := hids.used n hn
        refine ⟨dc, c', offerId, ?_, hid, hn'⟩
        rw [← hc']
        apply setChannel_other
        rintro rfl
        rw [hc] at hc'
        cases hc'

/-- There is a stream for every offer: the ids of the offers never come round. -/
theorem Ids.room_of_opening (h : s.Ids first offers) (hfirst : first ≤ 1) (hc : s.channels s.nextChannel = some c)
    (hid : c.offerId = none) : offers < 32768 := by
  refine Nat.lt_of_le_of_ne h.room fun hfull => ?_
  obtain ⟨dc₀, c₀, offerId₀, hc₀, hid₀, hn₀⟩ := h.used 0 (by omega)
  have hstream := (h.offered dc₀ c₀ offerId₀ hc₀ hid₀).2
  have hnext := h.stream
  have hsame : dc₀ = s.nextChannel := by
    apply dc_ext
    change _ = s.transport.nextStreamId.toNat
    omega
  rw [hsame, hc] at hc₀
  cases hc₀
  rw [hid] at hid₀
  cases hid₀

theorem Ids.opened (h : s.Ids first offers) (hfirst : first ≤ 1) (hc : s.channels s.nextChannel = some c)
    (hid : c.offerId = none) (worker : Worker) :
    Ids first { s.setChannel s.nextChannel { c with worker := worker, offerId := some s.nextOfferId } with
      transport := ⟨s.transport.nextStreamId + 2⟩
      nextOfferId := s.nextOfferId + 1 } (offers + 1) := by
  have hroom := h.room_of_opening hfirst hc hid
  have hnext := h.next
  have hstream := h.stream
  constructor
  · change (s.nextOfferId + 1).toNat = offers + 1
    rw [UInt32.toNat_add, hnext]
    exact Nat.mod_eq_of_lt (show offers + 1 < 2 ^ 32 by omega)
  · exact hroom
  · change (s.transport.nextStreamId + 2).toNat = _
    rw [UInt16.toNat_add, hstream]
    change ((first + 2 * offers) % 65536 + 2) % 65536 = _
    omega
  · intro dc c' offerId hc' hid'
    change (s.setChannel s.nextChannel _).channels dc = some c' at hc'
    by_cases hdc : dc = s.nextChannel
    · subst hdc
      rw [setChannel_self] at hc'
      cases hc'
      cases hid'
      refine ⟨by omega, ?_⟩
      change s.transport.nextStreamId.toNat = _
      omega
    · rw [setChannel_other s _ hdc] at hc'
      obtain ⟨hlt, heq⟩ := h.offered dc c' offerId hc' hid'
      exact ⟨by omega, heq⟩
  · intro n hn
    by_cases hlast : n = offers
    · exact ⟨s.nextChannel, _, s.nextOfferId, setChannel_self s s.nextChannel _, rfl, hnext.trans hlast.symm⟩
    · obtain ⟨dc, c', offerId, hc', hid', hn'⟩ := h.used n (by omega)
      refine ⟨dc, c', offerId, ?_, hid', hn'⟩
      rw [← hc']
      apply setChannel_other
      rintro rfl
      rw [hc] at hc'
      cases hc'
      rw [hid] at hid'
      cases hid'
  · exact fun e he => Nat.lt_succ_of_lt (h.told e he)

theorem inv_opened (h : s.Inv first) (hfirst : first ≤ 1) : s.opened.Inv first := by
  unfold Exchange.opened
  cases hc : s.channels s.nextChannel with
  | none => exact h
  | some c =>
    by_cases hw : c.worker = .opening ∧ c.stream = .accepted
    · obtain ⟨offers, hids⟩ := h.ids
      obtain ⟨hquiet, _, hfresh, htaken, hnone⟩ := (h.phase _ c hc).silent_of_opening hw.1
      dsimp only
      rw [if_pos hw]
      refine ⟨?_, ?_, h.reading, offers + 1, hids.opened hfirst hc hnone _⟩
      · intro dc c' hc'
        change (s.setChannel s.nextChannel _).channels dc = some c' at hc'
        by_cases hdc : dc = s.nextChannel
        · subst hdc
          rw [setChannel_self] at hc'
          cases hc'
          refine .silent hquiet ?_ hfresh htaken (.inr (.inl ⟨rfl, hw.2, _, rfl⟩))
          -- nobody was told of an offer with the new id
          refine List.eq_nil_iff_forall_not_mem.mpr fun m hm => ?_
          have := hids.told _ (mem_under.mp hm)
          rw [hids.next] at this
          exact Nat.lt_irrefl _ this
        · rw [setChannel_other s _ hdc] at hc'
          exact h.phase dc c' hc'
      · intro dc hc'
        change (s.setChannel s.nextChannel _).channels dc = none at hc'
        by_cases hdc : dc = s.nextChannel
        · subst hdc
          exact hquiet
        · rw [setChannel_other s _ hdc] at hc'
          exact h.absent dc hc'
    · dsimp only
      rw [if_neg hw]
      exact h

theorem inv_openFailed (h : s.Inv first) : s.openFailed.Inv first := by
  unfold openFailed
  cases hc : s.channels s.nextChannel with
  | none => exact h
  | some c =>
    by_cases hw : c.worker = .opening
    · simp only [hw, if_true]
      exact h.setChannel hc rfl ((h.phase _ c hc).stops (by simp [hw]))
    · simp only [hw, if_false]
      exact h

theorem inv_work (h : s.Inv first) (dc : DataChannel) (env : WorkerTurn) : (s.work dc env).Inv first := by
  unfold work
  cases hc : s.channels dc with
  | none => exact h
  | some c =>
    refine h.setChannel hc ?_ ((h.phase dc c hc).work env)
    obtain heq | ⟨_, heq⟩ | ⟨_, _, _, heq⟩ | ⟨answer, hw, ha, hreject, haccept⟩ | ⟨_, heq⟩ :=
      workerTurn_cases c (s.answersOn dc) env
    · rw [heq]
    · rw [heq]
    · rw [heq]
      rfl
    · obtain ⟨hanswer, _⟩ | ⟨hanswer, _⟩ := (h.phase dc c hc).takes hw ha
      · rw [hreject hanswer]
      · rw [haccept hanswer]
    · rw [heq]

theorem phase_stream {st : Standing} {told : List FileMetadata} (h : Phase st told c) (hs : c.stream ≠ .accepted)
    (stream : Stream) : Phase st told { c with stream := stream } := by
  cases h with
  | silent quiet untold fresh taken worker =>
    refine .silent quiet untold fresh taken ?_
    obtain h | ⟨_, h, _⟩ | h := worker
    · exact .inl h
    · exact absurd h hs
    · exact .inr (.inr h)
  | offered quiet untold id accepted => exact absurd accepted hs
  | heard unanswered notDownloaded pending told accepted => exact absurd accepted hs
  | answered answers downloads pending told accepted => exact absurd accepted hs
  | sending answers downloads pending told accepted => exact absurd accepted hs

theorem inv_acceptDataChannel (h : s.Inv first) (dc : DataChannel) (opened : Bool) :
    (s.acceptDataChannel dc opened).Inv first := by
  unfold acceptDataChannel
  split
  · next c hl hc =>
    by_cases hs : c.stream = .backlog
    · have hne : c.stream ≠ .accepted := by simp [hs]
      have hphase := h.phase dc c hc
      rw [if_pos hs]
      cases opened with
      | true =>
        have hnext : (s.setChannel dc { c with stream := .accepted }).Inv first :=
          h.setChannel hc rfl (phase_stream hphase hne .accepted)
        refine hnext.setListener fun dc' hl' => ?_
        cases hl'
        exact hphase.quiet_of_stream hne
      | false =>
        have hnext : (s.setChannel dc { c with stream := .failed }).Inv first :=
          h.setChannel hc rfl (phase_stream hphase hne .failed)
        exact hnext
    · rw [if_neg hs]
      exact h
  · exact h

theorem inv_disconnected (h : s.Inv first) : s.disconnected.Inv first := by
  unfold disconnected
  split
  · exact h.stopped
  · exact h

theorem inv_download (h : s.Inv first) (dc : DataChannel) (env : ReceiverTurn) : (s.download dc env).Inv first := by
  unfold download
  cases hc : s.channels dc with
  | none => exact h
  | some c =>
    by_cases hd : dc ∈ s.answering.downloads.map Prod.snd
    · simp only [hd, if_true]
      exact h.setChannel hc rfl ((h.phase dc c hc).downloads (mem_downloads.mp hd) env)
    · simp only [hd, if_false]
      exact h

/-! ## The listener -/

/-- The standing of a channel after an offer of another channel was inserted. -/
theorem standing_insert (h : s.Inv first) (hc : s.channels dc = some c) (hid : c.offerId = some offerId)
    (hdc : dc' ≠ dc) (a : Answering) (ha : a = { s.answering with
      pendingDataChannels := Function.update s.answering.pendingDataChannels offerId (some dc) }) :
    standing { s with answering := a } dc' = s.standing dc' := by
  have hfree : s.answering.pendingDataChannels offerId ≠ some dc' := by
    intro hpending
    cases hc' : s.channels dc' with
    | none => exact (h.absent dc' hc').pending offerId hpending
    | some c' =>
      obtain ⟨offers, hids⟩ := h.ids
      exact hdc (hids.unique hc' hc ((h.phase dc' c' hc').pendingOf hpending).1 hid)
  subst ha
  unfold standing
  congr 1
  funext id
  rw [eq_iff_iff]
  by_cases hsame : id = offerId
  · subst hsame
    change Function.update _ _ _ _ = _ ↔ _
    rw [Function.update_self]
    exact iff_of_false (fun he => hdc (Option.some.inj he).symm) hfree
  · change Function.update _ _ _ _ = _ ↔ _
    rw [Function.update_of_ne hsame]

/-- An offer comes in: its channel is pending, and the user may have been told. -/
theorem inv_pending (h : s.Inv first) (hc : s.channels dc = some c) (hid : c.offerId = some offerId)
    (hquiet : (s.standing dc).Quiet) (events : List (UInt32 × FileMetadata))
    (hevents : events = s.events ∨ ∃ m, events = s.events ++ [(offerId, m)])
    (hphase : ∀ st told, st.answers = [] → st.downloads = [] → (∀ id, st.pending id → c.offerId = some id) →
      told = under offerId events → Phase st told c) (listener : Listener)
    (hl : ∀ dc, listener ≠ .reading dc) :
    Inv first { s with
      answering := { s.answering with
        pendingDataChannels := Function.update s.answering.pendingDataChannels offerId (some dc) }
      events := events
      listener := listener } := by
  obtain ⟨offers, hids⟩ := h.ids
  constructor
  · intro dc' c' hc'
    change s.channels dc' = some c' at hc'
    by_cases hdc : dc' = dc
    · subst hdc
      rw [hc] at hc'
      cases hc'
      refine hphase _ _ hquiet.answers hquiet.downloads (fun id hpending => ?_) ?_
      · by_cases hsame : id = offerId
        · rw [hsame, hid]
        · change Function.update _ _ _ _ = _ at hpending
          rw [Function.update_of_ne hsame] at hpending
          exact absurd hpending (hquiet.pending id)
      · unfold told
        rw [hid]
    · have htold : told { s with events := events } c' = s.told c' := by
        obtain rfl | ⟨m, rfl⟩ := hevents
        · rfl
        · unfold told
          cases hid' : c'.offerId with
          | none => rfl
          | some id =>
            refine under_concat_other (fun he => hdc ?_) s.events m
            exact hids.unique hc' hc (hid'.trans (congrArg some he.symm)) hid
      have hstanding := standing_insert h hc hid hdc _ rfl
      have hphase' := h.phase dc' c' hc'
      rw [← hstanding, ← htold] at hphase'
      exact hphase'
  · intro dc' hc'
    change s.channels dc' = none at hc'
    have hdc : dc' ≠ dc := by
      rintro rfl
      rw [hc] at hc'
      cases hc'
    have hq := h.absent dc' hc'
    rw [← standing_insert h hc hid hdc _ rfl] at hq
    exact hq
  · exact fun dc' hl' => absurd hl' (hl dc')
  · refine ⟨offers, hids.next, hids.room, hids.stream, hids.offered, hids.used, fun e he => ?_⟩
    obtain rfl | ⟨m, rfl⟩ := hevents
    · exact hids.told e he
    · rw [List.mem_append, List.mem_singleton] at he
      obtain he | rfl := he
      · exact hids.told e he
      · exact (hids.offered dc c offerId hc hid).1

theorem inv_handleIncoming (h : s.Inv first) (env : ListenerTurn) : (s.handleIncoming env).Inv first := by
  unfold handleIncoming
  split
  · next dc hl =>
    have hquiet := h.reading dc hl
    split
    · exact h.stopped
    · next c _ hc =>
      split
      · exact h
      · next message channel hqueue =>
        obtain ⟨⟨offerId, hid, rfl⟩, rfl, huntold, hnext⟩ := (h.phase dc c hc).hears hquiet hqueue
        have hkept : (s.setChannel dc (c.setChannel [])).Inv first := by
          refine h.setChannel hc rfl (hnext _ _ hquiet.answers hquiet.downloads ?_ (.inl huntold))
          exact fun id hp => absurd hp (hquiet.pending id)
        split
        · next offerId' m hparse =>
          cases fromBytes_offerId hparse
          unfold insertOffer
          have hself := setChannel_self s dc (c.setChannel [])
          have hnil : under offerId s.events = [] := by
            have := huntold
            unfold told at this
            rwa [hid] at this
          cases env.locked with
          | false => exact hkept.stopped
          | true =>
            cases env.eventSent with
            | false =>
              refine inv_pending hkept hself hid hquiet _ (.inl rfl) ?_ .stopped fun _ he => by cases he
              intro st told hanswers hdownloads hpending htold
              exact hnext st told hanswers hdownloads hpending (.inl (htold.trans hnil))
            | true =>
              refine inv_pending hkept hself hid hquiet _ (.inr ⟨m, rfl⟩) ?_ .accepting fun _ he => by cases he
              intro st told hanswers hdownloads hpending htold
              refine hnext st told hanswers hdownloads hpending (.inr ⟨m, ?_, offerId, hid, hparse⟩)
              rw [htold]
              change under offerId (s.events ++ _) = _
              rw [under_concat_self, hnil]
              rfl
        · exact hkept
    · exact h
  · exact h

/-! ## The user -/

/-- What an answer to a pending offer leaves, as far as it comes. -/
structure Answered (a a' : Answering) (offerId : UInt32) (dc : DataChannel) : Prop where
  pending : a'.pendingDataChannels = Function.update a.pendingDataChannels offerId none
  rest : a'.sent = a.sent ∧ a'.downloads = a.downloads ∨
    a'.sent = a.sent ++ [(dc, .rejectFile)] ∧ a'.downloads = a.downloads ∨
    a'.sent = a.sent ++ [(dc, .acceptFile)] ∧
      (a'.downloads = a.downloads ∨ a'.downloads = a.downloads ++ [(offerId, dc)])

theorem acceptFileOffer_answered (a : Answering) (offerId : UInt32) (steps : AnswerSteps) :
    (a.acceptFileOffer offerId steps).1 = a ∨ ∃ dc, a.pendingDataChannels offerId = some dc ∧
      Answered a (a.acceptFileOffer offerId steps).1 offerId dc := by
  obtain ⟨_, e, htake⟩ | ⟨dc, _, hpending, htake⟩ := a.takeOffer_cases offerId steps.lock
  · refine .inl ?_
    rw [Answering.acceptFileOffer, htake]
  · refine .inr ⟨dc, hpending, ?_⟩
    rw [Answering.acceptFileOffer, htake]
    cases steps.send with
    | error e => exact ⟨rfl, .inl ⟨rfl, rfl⟩⟩
    | ok =>
      cases steps.create with
      | error e => exact ⟨rfl, .inr (.inr ⟨rfl, .inl rfl⟩)⟩
      | ok => exact ⟨rfl, .inr (.inr ⟨rfl, .inr rfl⟩)⟩

theorem rejectFileOffer_answered (a : Answering) (offerId : UInt32) (steps : AnswerSteps) :
    (a.rejectFileOffer offerId steps).1 = a ∨ ∃ dc, a.pendingDataChannels offerId = some dc ∧
      Answered a (a.rejectFileOffer offerId steps).1 offerId dc := by
  obtain ⟨_, e, htake⟩ | ⟨dc, _, hpending, htake⟩ := a.takeOffer_cases offerId steps.lock
  · refine .inl ?_
    rw [Answering.rejectFileOffer, htake]
  · refine .inr ⟨dc, hpending, ?_⟩
    rw [Answering.rejectFileOffer, htake]
    cases steps.send with
    | error e => exact ⟨rfl, .inl ⟨rfl, rfl⟩⟩
    | ok => exact ⟨rfl, .inr (.inl ⟨rfl, rfl⟩)⟩

/-- An answer is about its own channel. -/
theorem standing_other {a : Answering} (ha : Answered s.answering a offerId dc)
    (hpending : s.answering.pendingDataChannels offerId = some dc) (hdc : dc' ≠ dc) :
    standing { s with answering := a } dc' = s.standing dc' := by
  have hanswers : under dc' a.sent = under dc' s.answering.sent := by
    obtain ⟨hsent, _⟩ | ⟨hsent, _⟩ | ⟨hsent, _⟩ := ha.rest
    · rw [hsent]
    · rw [hsent, under_concat_other hdc.symm]
    · rw [hsent, under_concat_other hdc.symm]
  have hdownloads : under dc' (a.downloads.map Prod.swap) = under dc' (s.answering.downloads.map Prod.swap) := by
    obtain ⟨_, hd⟩ | ⟨_, hd⟩ | ⟨_, hd | hd⟩ := ha.rest
    · rw [hd]
    · rw [hd]
    · rw [hd]
    · rw [hd, List.map_append]
      exact under_concat_other hdc.symm _ _
  have hpendings : ∀ id, a.pendingDataChannels id = some dc' ↔ s.answering.pendingDataChannels id = some dc' := by
    intro id
    rw [ha.pending]
    by_cases hsame : id = offerId
    · rw [hsame, Function.update_self, hpending]
      exact iff_of_false (by simp) (fun he => hdc (Option.some.inj he).symm)
    · rw [Function.update_of_ne hsame]
  exact Standing.mk.injEq .. ▸ ⟨hanswers, hdownloads, funext fun id => propext (hpendings id)⟩

theorem inv_answered (h : s.Inv first) {a : Answering} (ha : Answered s.answering a offerId dc)
    (hpending : s.answering.pendingDataChannels offerId = some dc) : Inv first { s with answering := a } := by
  have hbusy : ¬(s.standing dc).Quiet := fun hq => hq.pending offerId hpending
  constructor
  · intro dc' c hc
    by_cases hdc : dc' = dc
    · subst hdc
      have hphase := h.phase dc' c hc
      obtain ⟨hid, hnone, hnot⟩ := hphase.pendingOf hpending
      refine hphase.answer (show (s.standing dc').pending offerId from hpending) (fun id hp => ?_) ?_
      · change a.pendingDataChannels id = some dc' at hp
        rw [ha.pending] at hp
        by_cases hsame : id = offerId
        · rw [hsame, Function.update_self] at hp
          cases hp
        · rw [Function.update_of_ne hsame] at hp
          have := (hphase.pendingOf hp).1
          rw [hid] at this
          exact hsame (Option.some.inj this).symm
      · change under dc' s.answering.sent = [] at hnone
        change under dc' (s.answering.downloads.map Prod.swap) = [] at hnot
        change under dc' a.sent = [] ∧ under dc' (a.downloads.map Prod.swap) = [] ∨
          under dc' a.sent = [.rejectFile] ∧ under dc' (a.downloads.map Prod.swap) = [] ∨
          under dc' a.sent = [.acceptFile] ∧ (under dc' (a.downloads.map Prod.swap) = [] ∨
            under dc' (a.downloads.map Prod.swap) = [offerId])
        obtain ⟨hsent, hd⟩ | ⟨hsent, hd⟩ | ⟨hsent, hd | hd⟩ := ha.rest
        · rw [hsent, hd]
          exact .inl ⟨hnone, hnot⟩
        · rw [hsent, hd, under_concat_self, hnone]
          exact .inr (.inl ⟨rfl, hnot⟩)
        · rw [hsent, hd, under_concat_self, hnone]
          exact .inr (.inr ⟨rfl, .inl hnot⟩)
        · refine .inr (.inr ⟨?_, .inr ?_⟩)
          · rw [hsent, under_concat_self, hnone]
            rfl
          · rw [hd, List.map_append]
            have := under_concat_self dc' (s.answering.downloads.map Prod.swap) offerId
            rw [hnot] at this
            exact this
    · have hphase := h.phase dc' c hc
      rw [← standing_other ha hpending hdc] at hphase
      exact hphase
  · intro dc' hc
    have hq := h.absent dc' hc
    have hdc : dc' ≠ dc := fun he => hbusy (he ▸ hq)
    rwa [← standing_other ha hpending hdc] at hq
  · intro dc' hl
    have hq := h.reading dc' hl
    have hdc : dc' ≠ dc := fun he => hbusy (he ▸ hq)
    rwa [← standing_other ha hpending hdc] at hq
  · obtain ⟨offers, hids⟩ := h.ids
    exact ⟨offers, hids.next, hids.room, hids.stream, hids.offered, hids.used, hids.told⟩

/-! ## Whole runs -/

theorem inv_step (hfirst : first ≤ 1) (h : s.Inv first) {move : ExchangeMove} (hopen : s.OpensNew move) :
    (s.step move).Inv first := by
  cases move with
  | sendFile m content openStream => exact inv_sendFile h m content hopen
  | opened => exact inv_opened h hfirst
  | openFailed => exact inv_openFailed h
  | work dc env => exact inv_work h dc env
  | acceptDataChannel dc opened => exact inv_acceptDataChannel h dc opened
  | disconnected => exact inv_disconnected h
  | handleIncoming env => exact inv_handleIncoming h env
  | download dc env => exact inv_download h dc env
  | acceptFileOffer offerId steps =>
    obtain hsame | ⟨dc, hpending, ha⟩ := acceptFileOffer_answered s.answering offerId steps
    · rw [step, hsame]
      exact h
    · exact inv_answered h ha hpending
  | rejectFileOffer offerId steps =>
    obtain hsame | ⟨dc, hpending, ha⟩ := rejectFileOffer_answered s.answering offerId steps
    · rw [step, hsame]
      exact h
    · exact inv_answered h ha hpending

theorem inv_run {isClient : Bool} {moves : List ExchangeMove} {os : List Unit} {t : Exchange}
    (hopen : exchangeMachine.Guarded OpensNew (new isClient) moves)
    (hrun : exchangeMachine.run (new isClient) moves = some (t, os)) : t.Inv (if isClient then 1 else 0) := by
  have hfirst : (if isClient then 1 else 0) ≤ 1 := by cases isClient <;> decide
  refine exchangeMachine.run_invariant (Inv (if isClient then 1 else 0)) (fun s move s' o h hnew hstep => ?_)
    (inv_new isClient) hopen hrun
  cases hstep
  exact inv_step hfirst h hnew

section results
variable {isClient : Bool} {moves : List ExchangeMove} {os : List Unit} {t : Exchange}

/-- **Consent.** Whatever the order of the turns: an offer has at most one answer, no byte of a file has left it
unless that answer is the acceptance, what is written of it is its beginning, and every download belongs to an
accepted offer and runs under its id. -/
theorem files_by_consent (hopen : exchangeMachine.Guarded OpensNew (new isClient) moves)
    (hrun : exchangeMachine.run (new isClient) moves = some (t, os)) :
    (∀ dc c, t.channels dc = some c → (t.answersOn dc).length ≤ 1 ∧
      (t.answersOn dc = [.acceptFile] ∨ c.Untouched) ∧ c.transfer.written <+: c.content) ∧
    ∀ offerId dc, (offerId, dc) ∈ t.answering.downloads →
      ∃ c, t.channels dc = some c ∧ c.offerId = some offerId ∧ t.answersOn dc = [.acceptFile] := by
  have hinv := inv_run hopen hrun
  constructor
  · intro dc c hc
    have hphase := hinv.phase dc c hc
    exact ⟨hphase.answers_length, hphase.consent, hphase.written⟩
  · intro offerId dc hmem
    have hd : offerId ∈ (t.standing dc).downloads := mem_under.mpr (List.mem_map_of_mem hmem)
    cases hc : t.channels dc with
    | none =>
      rw [(hinv.absent dc hc).downloads] at hd
      cases hd
    | some c => exact ⟨c, rfl, (hinv.phase dc c hc).downloadsOf hd⟩

/-- The peer's user is told of an offer once, as it was read. -/
theorem toldOnce_of_told (hopen : exchangeMachine.Guarded OpensNew (new isClient) moves)
    (hrun : exchangeMachine.run (new isClient) moves = some (t, os)) {offerId : UInt32}
    (hmem : offerId ∈ t.events.map Prod.fst) :
    ∃ dc c, t.channels dc = some c ∧ c.offerId = some offerId ∧ c.ToldOnce (under offerId t.events) := by
  have hinv := inv_run hopen hrun
  obtain ⟨offers, hids⟩ := hinv.ids
  obtain ⟨e, he, rfl⟩ := List.mem_map.mp hmem
  obtain ⟨dc, c, offerId, hc, hid, hn⟩ := hids.used _ (hids.told _ he)
  rw [UInt32.toNat_inj] at hn
  rw [hn] at hid
  have htold := (hinv.phase dc c hc).toldOnce
  unfold told at htold
  rw [hid] at htold
  exact ⟨dc, c, hc, hid, htold⟩

/-- Nobody is told twice of offers with one id. -/
theorem told_nodup (hopen : exchangeMachine.Guarded OpensNew (new isClient) moves)
    (hrun : exchangeMachine.run (new isClient) moves = some (t, os)) :
    (t.events.map Prod.fst).Nodup := by
  refine List.nodup_iff_count_le_one.mpr fun offerId => ?_
  by_cases hmem : offerId ∈ t.events.map Prod.fst
  · obtain ⟨_, _, _, _, hnil | ⟨m, hone, _⟩⟩ := toldOnce_of_told hopen hrun hmem
    · rw [count_map_fst, hnil]
      exact Nat.zero_le 1
    · rw [count_map_fst, hone]
      exact Nat.le_refl 1
  · rw [List.count_eq_zero_of_not_mem hmem]
    exact Nat.zero_le 1

/-- **No offer is taken for another.** The ids of the offers of a call are all different, the peer's user is told
of each at most once, and what is put before the user under an id, and can be accepted under it, is the file
that was offered under it. -/
theorem offers_never_confused (hopen : exchangeMachine.Guarded OpensNew (new isClient) moves)
    (hrun : exchangeMachine.run (new isClient) moves = some (t, os)) :
    (∀ dc c dc' c' offerId, t.channels dc = some c → t.channels dc' = some c' → c.offerId = some offerId →
      c'.offerId = some offerId → dc = dc') ∧
    (t.events.map Prod.fst).Nodup ∧
    (∀ offerId m, (offerId, m) ∈ t.events →
      ∃ dc c, t.channels dc = some c ∧ c.offerId = some offerId ∧ c.ReadsAs m ∧
      ((encode c.fileMetadata.name).length ≤ 255 → m = c.fileMetadata)) ∧
    ∀ offerId dc, t.answering.pendingDataChannels offerId = some dc →
      ∃ c, t.channels dc = some c ∧ c.offerId = some offerId ∧ t.answersOn dc = [] := by
  have hinv := inv_run hopen hrun
  obtain ⟨offers, hids⟩ := hinv.ids
  refine ⟨fun dc c dc' c' offerId => hids.unique, told_nodup hopen hrun, fun offerId m he => ?_,
    fun offerId dc hp => ?_⟩
  · obtain ⟨dc, c, hc, hid, htold⟩ := toldOnce_of_told hopen hrun (List.mem_map_of_mem he)
    have hm : m ∈ under offerId t.events := mem_under.mpr he
    obtain hnil | ⟨m', hone, hreads⟩ := htold
    · simp [hnil] at hm
    · obtain rfl : m = m' := by simpa [hone] using hm
      refine ⟨dc, c, hc, hid, hreads, fun hname => ?_⟩
      obtain ⟨id, _, hparse⟩ := hreads
      rw [fromBytes_offer hname] at hparse
      cases hparse
      rfl
  · cases hc : t.channels dc with
    | none => exact absurd hp ((hinv.absent dc hc).pending offerId)
    | some c =>
      obtain ⟨hid, hnone, _⟩ := (hinv.phase dc c hc).pendingOf hp
      exact ⟨c, rfl, hid, hnone⟩

end results

/-- Two files are offered, the second is accepted and the first rejected. -/
def secondAccepted : List ExchangeMove :=
  let smooth : WorkerTurn := ⟨.message, ⟨true, .bytes 512, true⟩⟩
  let heard : ListenerTurn := ⟨.message, true, true⟩
  let steps : AnswerSteps := ⟨.ok (), .ok (), .ok ()⟩
  [.sendFile ⟨2, "a".toList⟩ [1, 2] true, .acceptDataChannel ⟨1⟩ true, .opened, .work ⟨1⟩ smooth,
    .handleIncoming heard,
    .sendFile ⟨3, "b".toList⟩ [3, 4, 5] true, .acceptDataChannel ⟨3⟩ true, .opened, .work ⟨3⟩ smooth,
      .handleIncoming heard,
    .acceptFileOffer 1 steps, .rejectFileOffer 0 steps, .work ⟨1⟩ smooth,
      .work ⟨3⟩ smooth, .work ⟨3⟩ smooth,
    .download ⟨3⟩ ⟨true, .message, .done, true⟩]

/-- The first file stays where it is and the second is on its way. -/
theorem second_file_by_consent : ∃ t os, exchangeMachine.run (new true) secondAccepted = some (t, os) ∧
    (∃ c, t.channels ⟨1⟩ = some c ∧ t.answersOn ⟨1⟩ = [.rejectFile] ∧ c.Untouched) ∧
    ∃ c, t.channels ⟨3⟩ = some c ∧ c.offerId = some 1 ∧ c.transfer.written = [3, 4, 5] := by
  obtain ⟨t, os, hrun⟩ : ∃ t os, exchangeMachine.run (new true) secondAccepted = some (t, os) := ⟨_, _, rfl⟩
  have hreject : t.answersOn ⟨1⟩ = [.rejectFile] := by
    cases hrun
    rfl
  have hfirst : ∃ c, t.channels ⟨1⟩ = some c := by
    cases hrun
    exact ⟨_, rfl⟩
  obtain ⟨c, hc⟩ := hfirst
  have hconsent := ((files_by_consent (by decide +kernel) hrun).1 ⟨1⟩ c hc).2.1
  rw [hreject] at hconsent
  refine ⟨t, os, hrun, ⟨c, hc, hreject, hconsent.resolve_left (by decide)⟩, ?_⟩
  cases hrun
  exact ⟨_, rfl, rfl, rfl⟩

/-- The user was told of both files under their own names. -/
theorem both_files_told : ∃ t os, exchangeMachine.run (new true) secondAccepted = some (t, os) ∧
    t.events = [(0, ⟨2, "a".toList⟩), (1, ⟨3, "b".toList⟩)] ∧ (t.events.map Prod.fst).Nodup := by
  obtain ⟨t, os, hrun⟩ : ∃ t os, exchangeMachine.run (new true) secondAccepted = some (t, os) := ⟨_, _, rfl⟩
  have hnodup := (offers_never_confused (by decide +kernel) hrun).2.1
  cases hrun
  exact ⟨_, _, rfl, rfl, hnodup⟩

end Exchange
end RoomRtc.File
