import RoomRtc.File.Codecs
import RoomRtc.File.Exchange

/-! What holds in every state of the file offers of a call, whatever the order of the turns: how far a channel
has come, what the peer has of it, and which ids are in use. -/
namespace RoomRtc.File
open Access BigEndian Text Transport
set_option autoImplicit false

/-! ## Pairs under a key -/

section under
variable {α β : Type} [DecidableEq α]

@[simp] theorem under_nil (key : α) : under key ([] : List (α × β)) = [] := rfl

theorem under_concat_self (key : α) (l : List (α × β)) (x : β) :
    under key (l ++ [(key, x)]) = under key l ++ [x] := by
  simp [under]

theorem under_concat_other {key k : α} (h : k ≠ key) (l : List (α × β)) (x : β) :
    under key (l ++ [(k, x)]) = under key l := by
  simp [under, h]

theorem mem_under {key : α} {l : List (α × β)} {x : β} : x ∈ under key l ↔ (key, x) ∈ l := by
  unfold under
  rw [List.mem_filterMap]
  constructor
  · rintro ⟨⟨k, y⟩, hmem, hy⟩
    split at hy
    · next hk =>
      cases hy
      cases hk
      exact hmem
    · cases hy
  · exact fun h => ⟨(key, x), h, if_pos rfl⟩

theorem count_map_fst (key : α) (l : List (α × β)) : (l.map Prod.fst).count key = (under key l).length := by
  induction l with
  | nil => rfl
  | cons x l ih =>
    rw [List.map_cons, List.count_cons, ih]
    by_cases hkey : x.1 = key <;> simp [under, hkey]

end under

/-! ## The offer on its way -/

/-- Whatever is read from an offer has its id. -/
theorem fromBytes_offerId {offerId offerId' : UInt32} {m m' : FileMetadata}
    (h : FtpMessage.fromBytes ((FtpMessage.fileOffer offerId m).toBytes.take (FILE_CHUNK_SIZE + 5)) =
      some (.fileOffer offerId' m')) : offerId' = offerId := by
  have hid : ((((FtpMessage.fileOffer offerId m).toBytes.take (FILE_CHUNK_SIZE + 5)).take 5).drop 1) =
      beBytes 4 offerId.toNat := by
    rw [List.take_take, List.drop_take]
    exact List.take_left' (beBytes_length ..)
  have hhead : ((FtpMessage.fileOffer offerId m).toBytes.take (FILE_CHUNK_SIZE + 5)).head? = some 1 := rfl
  unfold FtpMessage.fromBytes at h
  rw [hhead, hid, beNat_beBytes_of_lt offerId.toNat_lt, UInt32.ofNat_toNat] at h
  simp only [bind, Option.bind_some, true_and] at h
  split at h
  · obtain ⟨_, _, hm⟩ := Option.bind_eq_some_iff.mp h
    cases hm
    rfl
  · simp at h

/-- An offer with a name that has room for its length comes through. -/
theorem fromBytes_offer {offerId : UInt32} {m : FileMetadata} (h : (encode m.name).length ≤ 255) :
    FtpMessage.fromBytes ((FtpMessage.fileOffer offerId m).toBytes.take (FILE_CHUNK_SIZE + 5)) =
      some (.fileOffer offerId m) := by
  have hlength : (FtpMessage.fileOffer offerId m).toBytes.length ≤ FILE_CHUNK_SIZE + 5 := by
    simp [FtpMessage.toBytes, FileMetadata.toBytes, FILE_CHUNK_SIZE]
    omega
  have hback := FtpMessage.fromBytes_toBytes (m := .fileOffer offerId m) h []
  rwa [List.append_nil, ← List.take_of_length_le hlength] at hback

/-! ## One channel -/

/-- What the peer has of a channel. -/
structure Standing where
  answers : List FtpMessage
  downloads : List UInt32
  pending : UInt32 → Prop

/-- The peer's user knows nothing of the channel. -/
structure Standing.Quiet (st : Standing) : Prop where
  answers : st.answers = []
  downloads : st.downloads = []
  pending : ∀ offerId, ¬st.pending offerId

namespace Exchange

def standing (s : Exchange) (dc : DataChannel) : Standing where
  answers := s.answersOn dc
  downloads := under dc (s.answering.downloads.map Prod.swap)
  pending offerId := s.answering.pendingDataChannels offerId = some dc

/-- What the peer's user was told of the offer with the channel's id. -/
def told (s : Exchange) (c : Channel) : List FileMetadata :=
  match c.offerId with
  | none => []
  | some offerId => under offerId s.events

end Exchange

theorem mem_downloads {s : Exchange} {dc : DataChannel} :
    dc ∈ s.answering.downloads.map Prod.snd ↔ (s.standing dc).downloads ≠ [] := by
  constructor
  · intro h
    obtain ⟨⟨offerId, _⟩, hmem, rfl⟩ := List.mem_map.mp h
    exact List.ne_nil_of_mem (mem_under.mpr (List.mem_map_of_mem hmem))
  · intro h
    obtain ⟨offerId, hd⟩ := List.exists_mem_of_ne_nil _ h
    obtain ⟨⟨_, _⟩, hmem, he⟩ := List.mem_map.mp (mem_under.mp hd)
    cases he
    exact List.mem_map_of_mem hmem

namespace Channel

/-- The offer of the channel reads as an offer of the file `m`. -/
def ReadsAs (c : Channel) (m : FileMetadata) : Prop :=
  ∃ offerId, c.offerId = some offerId ∧
    FtpMessage.fromBytes ((FtpMessage.fileOffer offerId c.fileMetadata).toBytes.take (FILE_CHUNK_SIZE + 5)) =
      some (.fileOffer offerId m)

/-- At most one offer was put before the user, as it was read. -/
def ToldOnce (c : Channel) (told : List FileMetadata) : Prop := told = [] ∨ ∃ m, told = [m] ∧ c.ReadsAs m

/-- At most one download was started, under the channel's id. -/
def DownloadedOnce (c : Channel) (downloads : List UInt32) : Prop :=
  downloads = [] ∨ ∃ offerId, c.offerId = some offerId ∧ downloads = [offerId]

/-- No byte of the file has left it. -/
structure Untouched (c : Channel) : Prop where
  unread : c.transfer.unread = c.content
  written : c.transfer.written = []
  onlyOffer : ∀ message ∈ c.transfer.channel, ∃ offerId, c.offerId = some offerId ∧
    message = (FtpMessage.fileOffer offerId c.fileMetadata).toBytes

end Channel

/-- The chunks that are written are the beginning of the content. -/
def InOrder (content : Bytes) (s : Transfer) : Prop :=
  (∃ chunks ended rest, Ledger content chunks ended rest s) ∧ s.written <+: content

/-- How far a channel has come. -/
inductive Phase (st : Standing) (told : List FileMetadata) (c : Channel) : Prop where
  | silent (quiet : st.Quiet) (untold : told = []) (fresh : c.transfer = .start c.content) (taken : c.taken = 0)
      (worker : c.worker = .opening ∧ c.offerId = none ∨
        (c.worker = .offering ∧ c.stream = .accepted ∧ ∃ offerId, c.offerId = some offerId) ∨ c.worker = .done)
  | offered {offerId : UInt32} (quiet : st.Quiet) (untold : told = []) (id : c.offerId = some offerId)
      (accepted : c.stream = .accepted) (worker : c.worker = .waiting ∧ c.taken = 0 ∨ c.worker = .done)
      (onWay : c.transfer = { Transfer.start c.content with
        channel := [(FtpMessage.fileOffer offerId c.fileMetadata).toBytes] })
  | heard (unanswered : st.answers = []) (notDownloaded : st.downloads = [])
      (pending : ∀ offerId, st.pending offerId → c.offerId = some offerId) (told : c.ToldOnce told)
      (accepted : c.stream = .accepted) (worker : c.worker = .waiting ∧ c.taken = 0 ∨ c.worker = .done)
      (fresh : c.transfer = .start c.content)
  | answered (answers : st.answers = [.rejectFile] ∧ st.downloads = [] ∨ st.answers = [.acceptFile])
      (downloads : c.DownloadedOnce st.downloads) (pending : ∀ offerId, ¬st.pending offerId)
      (told : c.ToldOnce told) (accepted : c.stream = .accepted)
      (worker : c.worker = .waiting ∧ c.taken = 0 ∨ c.worker = .done)
      (fresh : ∃ receiving, c.transfer = { Transfer.start c.content with receiving := receiving })
  | sending (answers : st.answers = [.acceptFile]) (downloads : c.DownloadedOnce st.downloads)
      (pending : ∀ offerId, ¬st.pending offerId) (told : c.ToldOnce told) (accepted : c.stream = .accepted)
      (worker : c.worker = .sending) (inOrder : InOrder c.content c.transfer)

section phase
variable {st : Standing} {told : List FileMetadata} {c : Channel}

theorem untouched_start (h : c.transfer = .start c.content) : c.Untouched where
  unread := by rw [h]; rfl
  written := by rw [h]; rfl
  onlyOffer := by
    rw [h]
    exact fun message hm => absurd hm (by simp [Transfer.start])

/-- Before the acceptance no byte of the file leaves it. -/
theorem Phase.consent (h : Phase st told c) : st.answers = [.acceptFile] ∨ c.Untouched := by
  cases h with
  | silent quiet untold fresh => exact .inr (untouched_start fresh)
  | offered quiet untold id accepted worker onWay =>
    refine .inr ⟨by rw [onWay]; rfl, by rw [onWay]; rfl, fun message hm => ⟨_, id, ?_⟩⟩
    rw [onWay] at hm
    exact List.mem_singleton.mp hm
  | heard unanswered notDownloaded pending told accepted worker fresh => exact .inr (untouched_start fresh)
  | answered answers downloads pending told accepted worker fresh =>
    obtain ⟨receiving, fresh⟩ := fresh
    refine .inr ⟨by rw [fresh]; rfl, by rw [fresh]; rfl, fun message hm => ?_⟩
    rw [fresh] at hm
    exact absurd hm (by simp [Transfer.start])
  | sending answers => exact .inl answers

theorem Phase.answers_length (h : Phase st told c) : st.answers.length ≤ 1 := by
  cases h with
  | silent quiet => simp [quiet.answers]
  | offered quiet => simp [quiet.answers]
  | heard unanswered => simp [unanswered]
  | answered answers => obtain ⟨h, _⟩ | h := answers <;> simp [h]
  | sending answers => simp [answers]

theorem Phase.written (h : Phase st told c) : c.transfer.written <+: c.content := by
  cases h with
  | silent quiet untold fresh => simp [fresh, Transfer.start]
  | offered quiet untold id accepted worker onWay => simp [onWay, Transfer.start]
  | heard unanswered notDownloaded pending told accepted worker fresh => simp [fresh, Transfer.start]
  | answered answers downloads pending told accepted worker fresh =>
    obtain ⟨receiving, fresh⟩ := fresh
    simp [fresh, Transfer.start]
  | sending answers downloads pending told accepted worker inOrder => exact inOrder.2

theorem Phase.toldOnce (h : Phase st told c) : c.ToldOnce told := by
  cases h with
  | silent quiet untold => exact .inl untold
  | offered quiet untold => exact .inl untold
  | heard unanswered notDownloaded pending told => exact told
  | answered answers downloads pending told => exact told
  | sending answers downloads pending told => exact told

/-- A download belongs to an offer that was accepted, under its id. -/
theorem Phase.downloadsOf (h : Phase st told c) {offerId : UInt32} (hd : offerId ∈ st.downloads) :
    c.offerId = some offerId ∧ st.answers = [.acceptFile] := by
  have hone : c.DownloadedOnce st.downloads → c.offerId = some offerId := by
    rintro (hnone | ⟨offerId', hid, hall⟩)
    · simp [hnone] at hd
    · rw [hall, List.mem_singleton] at hd
      rw [hid, hd]
  cases h with
  | silent quiet => simp [quiet.downloads] at hd
  | offered quiet => simp [quiet.downloads] at hd
  | heard unanswered notDownloaded => simp [notDownloaded] at hd
  | answered answers downloads =>
    obtain ⟨_, hnone⟩ | haccept := answers
    · simp [hnone] at hd
    · exact ⟨hone downloads, haccept⟩
  | sending answers downloads => exact ⟨hone downloads, answers⟩

theorem Phase.answers_of_sending (h : Phase st told c) (hw : c.worker = .sending) : st.answers = [.acceptFile] := by
  cases h with
  | silent quiet untold fresh taken worker => simp [hw] at worker
  | offered quiet untold id accepted worker => simp [hw] at worker
  | heard unanswered notDownloaded pending told accepted worker => simp [hw] at worker
  | answered answers downloads pending told accepted worker => simp [hw] at worker
  | sending answers => exact answers

/-- A download is there and the worker has not taken the answer yet. -/
theorem Phase.accepted_of_download (h : Phase st told c) (hw : c.worker = .waiting) (hd : st.downloads ≠ []) :
    st.answers = [.acceptFile] ∧ c.taken = 0 := by
  cases h with
  | silent quiet => exact absurd quiet.downloads hd
  | offered quiet => exact absurd quiet.downloads hd
  | heard unanswered notDownloaded => exact absurd notDownloaded hd
  | answered answers downloads pending told accepted worker =>
    refine ⟨answers.resolve_left fun h => hd h.2, ?_⟩
    obtain ⟨_, h⟩ | h := worker
    · exact h
    · simp [hw] at h
  | sending answers downloads pending told accepted worker => simp [hw] at worker

theorem Phase.fresh_of_download (h : Phase st told c) (hw : c.worker = .waiting) (hd : st.downloads ≠ [])
    (hreceiving : c.transfer.receiving = true) : c.transfer = .start c.content := by
  cases h with
  | silent quiet => exact absurd quiet.downloads hd
  | offered quiet => exact absurd quiet.downloads hd
  | heard unanswered notDownloaded => exact absurd notDownloaded hd
  | answered answers downloads pending told accepted worker fresh =>
    obtain ⟨receiving, fresh⟩ := fresh
    rw [fresh] at hreceiving ⊢
    cases hreceiving
    rfl
  | sending answers downloads pending told accepted worker => simp [hw] at worker

/-- A pending offer is under the channel's id and has no answer yet. -/
theorem Phase.pendingOf (h : Phase st told c) {offerId : UInt32} (hp : st.pending offerId) :
    c.offerId = some offerId ∧ st.answers = [] ∧ st.downloads = [] := by
  cases h with
  | silent quiet => exact absurd hp (quiet.pending offerId)
  | offered quiet => exact absurd hp (quiet.pending offerId)
  | heard unanswered notDownloaded pending => exact ⟨pending offerId hp, unanswered, notDownloaded⟩
  | answered answers downloads pending => exact absurd hp (pending offerId)
  | sending answers downloads pending => exact absurd hp (pending offerId)

/-- Only a stream that was accepted is known to the peer's user. -/
theorem Phase.quiet_of_stream (h : Phase st told c) (hs : c.stream ≠ .accepted) : st.Quiet := by
  cases h with
  | silent quiet => exact quiet
  | offered quiet => exact quiet
  | heard unanswered notDownloaded pending told accepted => exact absurd accepted hs
  | answered answers downloads pending told accepted => exact absurd accepted hs
  | sending answers downloads pending told accepted => exact absurd accepted hs

theorem Phase.silent_of_opening (h : Phase st told c) (hw : c.worker = .opening) :
    st.Quiet ∧ told = [] ∧ c.transfer = .start c.content ∧ c.taken = 0 ∧ c.offerId = none := by
  cases h with
  | silent quiet untold fresh taken worker =>
    refine ⟨quiet, untold, fresh, taken, ?_⟩
    obtain ⟨_, hid⟩ | ⟨hw', _⟩ | hw' := worker
    · exact hid
    · simp [hw] at hw'
    · simp [hw] at hw'
  | offered quiet untold id accepted worker => simp [hw] at worker
  | heard unanswered notDownloaded pending told accepted worker => simp [hw] at worker
  | answered answers downloads pending told accepted worker => simp [hw] at worker
  | sending answers downloads pending told accepted worker => simp [hw] at worker

/-! ## Turns at one channel -/

theorem inOrder_send {content : Bytes} {s : Transfer} (h : InOrder content s) (env : SenderTurn) :
    InOrder content (s.sendTurn env) := by
  obtain ⟨⟨chunks, ended, rest, hl⟩, hwritten⟩ := h
  have hsame : (s.sendTurn env).written = s.written := by
    cases hs : s.sender with
    | sending =>
      obtain ⟨_, heq, _⟩ | ⟨_, _, _, heq⟩ := sendTurn_cases hs env
      · rw [heq]
      · rw [heq]
    | ending => cases hsent : env.sent <;> simp [Transfer.sendTurn, hs, hsent]
    | finished => simp [Transfer.sendTurn, hs]
  refine ⟨?_, by rwa [hsame]⟩
  cases hs : s.sender with
  | sending =>
    obtain ⟨chunks', rest', hl', _⟩ := ledger_sending hl hs env
    exact ⟨chunks', ended, rest', hl'⟩
  | ending =>
    obtain ⟨ended', hl', _⟩ := ledger_ending hl hs env
    exact ⟨chunks, ended', rest, hl'⟩
  | finished =>
    have heq : s.sendTurn env = s := by simp [Transfer.sendTurn, hs]
    rw [heq]
    exact ⟨chunks, ended, rest, hl⟩

/-- A received message leaves the written bytes or puts some of a chunk behind them. -/
theorem receive_written (s : Transfer) (env : ReceiverTurn) (buff : Bytes) :
    (s.receive env buff).written = s.written ∨
    ∃ payload n, FtpMessage.fromBytes buff = some (.fileChunk payload) ∧
      (s.receive env buff).written = s.written ++ payload.take n := by
  unfold Transfer.receive
  split
  · exact .inl rfl
  · split
    · next payload heq =>
      cases env.write with
      | done => exact .inr ⟨payload, payload.length, heq, by rw [List.take_length]⟩
      | failed n => exact .inr ⟨payload, n, heq, rfl⟩
    · exact .inl rfl
    · exact .inl rfl

theorem inOrder_recv {content : Bytes} {s : Transfer} (h : InOrder content s) (env : ReceiverTurn) :
    InOrder content (s.recvTurn env) := by
  obtain ⟨⟨chunks, ended, rest, hl⟩, hwritten⟩ := h
  obtain ⟨chunks', ended', hl', _⟩ := ledger_receiver hl env
  refine ⟨⟨chunks', ended', rest, hl'⟩, ?_⟩
  obtain heq | heq | ⟨message, channel, hr, hc, heq⟩ := recvTurn_cases s env
  · rwa [heq]
  · rwa [heq]
  · rw [heq]
    obtain hsame | ⟨payload, n, hparse, happend⟩ := receive_written { s with channel := channel } env
      (message.take (FILE_CHUNK_SIZE + 5))
    · rwa [hsame]
    · rw [happend]
      have hqueue := hl.channel_eq
      rw [hc] at hqueue
      cases chunks with
      | nil =>
        cases ended with
        | false => cases hqueue
        | true =>
          obtain ⟨rfl, _⟩ := List.cons.inj hqueue
          cases hparse
      | cons chunk chunks =>
        obtain ⟨rfl, _⟩ := List.cons.inj hqueue
        rw [fromBytes_buffered (hl.isChunk chunk (List.mem_cons_self ..))] at hparse
        cases hparse
        rw [← hl.account hr, List.flatten_cons, List.append_assoc, List.append_assoc]
        exact (List.prefix_append_right_inj _).mpr ((List.take_prefix n payload).trans (List.prefix_append ..))

/-- The worker takes its first answer. -/
theorem Phase.takes (h : Phase st told c) (hw : c.worker = .waiting) {answer : FtpMessage}
    (ha : st.answers[c.taken]? = some answer) :
    (answer = .rejectFile ∧ Phase st told { c with taken := c.taken + 1, worker := .done }) ∨
      (answer = .acceptFile ∧ Phase st told { c with taken := c.taken + 1, worker := .sending }) := by
  cases h with
  | silent quiet untold fresh taken worker => simp [hw] at worker
  | offered quiet => simp [quiet.answers] at ha
  | heard unanswered => simp [unanswered] at ha
  | sending answers downloads pending told accepted worker => simp [hw] at worker
  | answered answers downloads pending told accepted worker fresh =>
    have htaken : c.taken = 0 := by
      obtain ⟨_, h⟩ | h := worker
      · exact h
      · simp [hw] at h
    obtain ⟨hreject, hnone⟩ | haccept := answers
    · rw [htaken, hreject] at ha
      cases ha
      exact .inl ⟨rfl, .answered (.inl ⟨hreject, hnone⟩) downloads pending told accepted (.inr rfl) fresh⟩
    · rw [htaken, haccept] at ha
      cases ha
      refine .inr ⟨rfl, .sending haccept downloads pending told accepted rfl ⟨?_, ?_⟩⟩
      · obtain ⟨receiving, fresh⟩ := fresh
        have hl := ledger_start c.content
        refine ⟨[], false, c.content, ?_⟩
        rw [fresh]
        cases receiving with
        | true => exact hl
        | false => exact ledger_stop hl
      · obtain ⟨receiving, fresh⟩ := fresh
        rw [fresh]
        exact List.nil_prefix

theorem Phase.fresh_of_answer (h : Phase st told c) (hw : c.worker = .waiting) {answer : FtpMessage}
    (ha : st.answers[c.taken]? = some answer) :
    ∃ receiving, c.transfer = { Transfer.start c.content with receiving := receiving } := by
  cases h with
  | silent quiet untold fresh taken worker => simp [hw] at worker
  | offered quiet => simp [quiet.answers] at ha
  | heard unanswered => simp [unanswered] at ha
  | answered answers downloads pending told accepted worker fresh => exact fresh
  | sending answers downloads pending told accepted worker => simp [hw] at worker

/-- The worker gives up. -/
theorem Phase.stops (h : Phase st told c) (hw : c.worker ≠ .sending) : Phase st told { c with worker := .done } := by
  cases h with
  | silent quiet untold fresh taken worker => exact .silent quiet untold fresh taken (.inr (.inr rfl))
  | offered quiet untold id accepted worker onWay => exact .offered quiet untold id accepted (.inr rfl) onWay
  | heard unanswered notDownloaded pending told accepted worker fresh =>
    exact .heard unanswered notDownloaded pending told accepted (.inr rfl) fresh
  | answered answers downloads pending told accepted worker fresh =>
    exact .answered answers downloads pending told accepted (.inr rfl) fresh
  | sending answers downloads pending told accepted worker => exact absurd worker hw

/-- The worker sends its offer. -/
theorem Phase.offers (h : Phase st told c) (hw : c.worker = .offering) {offerId : UInt32}
    (hid : c.offerId = some offerId) : Phase st told { c.setChannel (c.transfer.channel ++
      [(FtpMessage.fileOffer offerId c.fileMetadata).toBytes]) with worker := .waiting } := by
  cases h with
  | silent quiet untold fresh taken worker =>
    obtain ⟨hw', _⟩ | ⟨_, accepted, _⟩ | hw' := worker
    · simp [hw] at hw'
    · refine .offered quiet untold hid accepted (.inl ⟨rfl, taken⟩) ?_
      simp [Channel.setChannel, fresh, Transfer.start]
    · simp [hw] at hw'
  | offered quiet untold id accepted worker => simp [hw] at worker
  | heard unanswered notDownloaded pending told accepted worker => simp [hw] at worker
  | answered answers downloads pending told accepted worker => simp [hw] at worker
  | sending answers downloads pending told accepted worker => simp [hw] at worker

theorem Phase.sends (h : Phase st told c) (hw : c.worker = .sending) (env : SenderTurn) :
    Phase st told { c with transfer := c.transfer.sendTurn env } := by
  cases h with
  | silent quiet untold fresh taken worker => simp [hw] at worker
  | offered quiet untold id accepted worker => simp [hw] at worker
  | heard unanswered notDownloaded pending told accepted worker => simp [hw] at worker
  | answered answers downloads pending told accepted worker => simp [hw] at worker
  | sending answers downloads pending told accepted worker inOrder =>
    exact .sending answers downloads pending told accepted worker (inOrder_send inOrder env)

/-- What a turn of the thread of `send_file` does to its channel. -/
theorem workerTurn_cases (c : Channel) (answers : List FtpMessage) (env : WorkerTurn) :
    c.workerTurn answers env = c ∨
    (c.worker ≠ .sending ∧ c.workerTurn answers env = { c with worker := .done }) ∨
    (∃ offerId, c.worker = .offering ∧ c.offerId = some offerId ∧ c.workerTurn answers env =
      { c.setChannel (c.transfer.channel ++ [(FtpMessage.fileOffer offerId c.fileMetadata).toBytes]) with
        worker := .waiting }) ∨
    (∃ answer, c.worker = .waiting ∧ answers[c.taken]? = some answer ∧
      (answer = .rejectFile → c.workerTurn answers env = { c with taken := c.taken + 1, worker := .done }) ∧
      (answer = .acceptFile → c.workerTurn answers env = { c with taken := c.taken + 1, worker := .sending })) ∨
    (c.worker = .sending ∧ c.workerTurn answers env = { c with transfer := c.transfer.sendTurn env.sender }) := by
  unfold Channel.workerTurn
  cases hw : c.worker with
  | opening => exact .inl rfl
  | done => exact .inl rfl
  | offering =>
    cases hid : c.offerId with
    | none => exact .inl rfl
    | some offerId =>
      cases hsent : env.sender.sent with
      | true => exact .inr (.inr (.inl ⟨offerId, rfl, rfl, rfl⟩))
      | false => exact .inr (.inl ⟨by simp, rfl⟩)
  | waiting =>
    cases env.recv with
    | failed => exact .inr (.inl ⟨by simp, rfl⟩)
    | closed => exact .inl rfl
    | message =>
      cases ha : answers[c.taken]? with
      | none => exact .inl rfl
      | some answer =>
        refine .inr (.inr (.inr (.inl ⟨answer, rfl, rfl, ?_, ?_⟩)))
        · rintro rfl
          rfl
        · rintro rfl
          rfl
  | sending => exact .inr (.inr (.inr (.inr ⟨rfl, rfl⟩)))

theorem Phase.work (h : Phase st told c) (env : WorkerTurn) : Phase st told (c.workerTurn st.answers env) := by
  obtain heq | ⟨hw, heq⟩ | ⟨offerId, hw, hid, heq⟩ | ⟨answer, hw, ha, hreject, haccept⟩ | ⟨hw, heq⟩ :=
    workerTurn_cases c st.answers env
  · rwa [heq]
  · rw [heq]
    exact h.stops hw
  · rw [heq]
    exact h.offers hw hid
  · obtain ⟨hanswer, hnext⟩ | ⟨hanswer, hnext⟩ := h.takes hw ha
    · rwa [hreject hanswer]
    · rwa [haccept hanswer]
  · rw [heq]
    exact h.sends hw env.sender

theorem recvTurn_fresh (content : Bytes) (receiving : Bool) (env : ReceiverTurn) :
    ∃ receiving', { Transfer.start content with receiving := receiving }.recvTurn env =
      { Transfer.start content with receiving := receiving' } := by
  obtain heq | heq | ⟨message, channel, _, hc, _⟩ :=
    recvTurn_cases { Transfer.start content with receiving := receiving } env
  · exact ⟨receiving, heq⟩
  · exact ⟨false, heq⟩
  · cases hc

/-- One turn of a download. -/
theorem Phase.downloads (h : Phase st told c) (hd : st.downloads ≠ []) (env : ReceiverTurn) :
    Phase st told { c with transfer := c.transfer.recvTurn env } := by
  cases h with
  | silent quiet => exact absurd quiet.downloads hd
  | offered quiet => exact absurd quiet.downloads hd
  | heard unanswered notDownloaded => exact absurd notDownloaded hd
  | answered answers downloads pending told accepted worker fresh =>
    obtain ⟨receiving, fresh⟩ := fresh
    refine .answered answers downloads pending told accepted worker ?_
    rw [fresh]
    exact recvTurn_fresh c.content receiving env
  | sending answers downloads pending told accepted worker inOrder =>
    exact .sending answers downloads pending told accepted worker (inOrder_recv inOrder env)

/-- The listener takes a message from a channel that is new to it: the offer. -/
theorem Phase.hears (h : Phase st told c) (hq : st.Quiet) {message : Bytes} {channel : List Bytes}
    (hc : c.transfer.channel = message :: channel) :
    (∃ offerId, c.offerId = some offerId ∧ message = (FtpMessage.fileOffer offerId c.fileMetadata).toBytes) ∧
      channel = [] ∧ told = [] ∧ ∀ st' told', st'.answers = [] → st'.downloads = [] →
        (∀ offerId, st'.pending offerId → c.offerId = some offerId) → c.ToldOnce told' →
          Phase st' told' (c.setChannel channel) := by
  cases h with
  | silent quiet untold fresh =>
    rw [fresh] at hc
    cases hc
  | offered quiet untold id accepted worker onWay =>
    rw [onWay] at hc
    cases hc
    refine ⟨⟨_, id, rfl⟩, rfl, untold, fun st' told' hanswers hdownloads hpending htold => ?_⟩
    refine .heard hanswers hdownloads hpending htold accepted worker ?_
    simp [Channel.setChannel, onWay, Transfer.start]
  | heard unanswered notDownloaded pending told accepted worker fresh =>
    rw [fresh] at hc
    cases hc
  | answered answers =>
    rw [hq.answers] at answers
    simp at answers
  | sending answers =>
    rw [hq.answers] at answers
    simp at answers

/-- The user answers a pending offer, or its channel does not take the answer. -/
theorem Phase.answer (h : Phase st told c) {offerId : UInt32} (hp : st.pending offerId) {st' : Standing}
    (hgone : ∀ offerId, ¬st'.pending offerId)
    (hst : st'.answers = [] ∧ st'.downloads = [] ∨ st'.answers = [.rejectFile] ∧ st'.downloads = [] ∨
      st'.answers = [.acceptFile] ∧ (st'.downloads = [] ∨ st'.downloads = [offerId])) : Phase st' told c := by
  have hid := (h.pendingOf hp).1
  cases h with
  | silent quiet => exact absurd hp (quiet.pending offerId)
  | offered quiet => exact absurd hp (quiet.pending offerId)
  | answered answers downloads pending => exact absurd hp (pending offerId)
  | sending answers downloads pending => exact absurd hp (pending offerId)
  | heard unanswered notDownloaded pending told accepted worker fresh =>
    obtain ⟨hnone, hnot⟩ | ⟨hreject, hnot⟩ | ⟨haccept, hdownloads⟩ := hst
    · exact .heard hnone hnot (fun id hid => absurd hid (hgone id)) told accepted worker fresh
    · exact .answered (.inl ⟨hreject, hnot⟩) (.inl hnot) hgone told accepted worker ⟨true, fresh⟩
    · refine .answered (.inr haccept) ?_ hgone told accepted worker ⟨true, fresh⟩
      obtain hnot | hone := hdownloads
      · exact .inl hnot
      · exact .inr ⟨offerId, hid, hone⟩

end phase
end RoomRtc.File
