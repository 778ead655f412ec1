import RoomRtc.File.Transferer
import Mathlib.Algebra.BigOperators.Group.List.Basic

/-! A file transfer in which nothing fails. The flag stays up, every read gives some bytes until the
end of the file, every message is taken and delivered once and in order, and every write is done.
Whatever the sizes of the reads and however the two workers take turns, what the receiver does is to
write the content piece by piece and then, once, to report the download as completed. -/
namespace RoomRtc.File
open Text
set_option autoImplicit false

/-! ## What the receiver does -/

inductive Effect where
  /-- `file.write_all(&payload)`, as far as it comes. -/
  | wrote (payload : Bytes)
  /-- `event_tx.send(AppEvent::FileDownloadCompleted(offer_id))`, if it is taken. -/
  | fileDownloadCompleted
deriving DecidableEq, Repr

def Transfer.effects (s : Transfer) : Turn → List Effect
  | .sender _ => []
  | .receiver env =>
    if !s.receiving then []
    else if !env.connected then []
    else
      match env.recv, s.channel with
      | .message, message :: _ =>
        match FtpMessage.fromBytes (message.take (FILE_CHUNK_SIZE + 5)) with
        | some (.fileChunk payload) =>
          match env.write with
          | .done => [.wrote payload]
          | .failed n => [.wrote (payload.take n)]
        | some .endOfFile => if env.eventSent then [.fileDownloadCompleted] else []
        | _ => []
      | _, _ => []

/-- The transfer, with what its receiver does. -/
def deliveryMachine : Machine Transfer Turn (List Effect) where
  step s turn := some (s.step turn, s.effects turn)

/-- A turn of either worker in which nothing fails, with whatever size of the read. -/
def Smooth (turn : Turn) : Prop := (∃ n, turn = .sender ⟨true, .bytes n, true⟩) ∨ turn = smoothReceive

def Turn.isSender : Turn → Bool
  | .sender _ => true
  | .receiver _ => false

/-! ## The invariant -/

/-- Nothing is left behind: what the sender has read is written or on its way, with `EndOfFile` behind it
in the end, and the receiver waits for it. -/
def Delivering (content : Bytes) (s : Transfer) : Prop :=
  ∃ chunks ended rest, Ledger content chunks ended rest s ∧ (s.sender = .sending ∨ rest = []) ∧
    (s.sender = .finished → ended = true ∨ s.completed = true) ∧ (s.receiving = true ∨ s.completed = true)

/-- The effects so far are writes that make up what is written, and the report if it was given. -/
def Told (s : Transfer) (effects : List Effect) : Prop :=
  ∃ payloads : List Bytes, effects = payloads.map .wrote ++ (if s.completed then [.fileDownloadCompleted] else []) ∧
    payloads.flatten = s.written

/-- How many turns the sender may still need. -/
def pending (s : Transfer) : ℕ :=
  match s.sender with
  | .sending => s.unread.length + 2
  | .ending => 1
  | .finished => 0

theorem delivering_start (content : Bytes) : Delivering content (.start content) :=
  ⟨[], false, content, ledger_start content, .inl rfl, (fun h => nomatch h), .inl rfl⟩

theorem exists_told (s : Transfer) : ∃ effects, Told s effects := ⟨_, [s.written], rfl, List.append_nil s.written⟩

theorem told_start (content : Bytes) : Told (.start content) [] := ⟨[], rfl, rfl⟩

variable {content : Bytes} {s : Transfer}

/-- What is written is always the beginning of the content, and in the end all of it. -/
theorem Delivering.written (h : Delivering content s) :
    s.written <+: content ∧ (s.completed = true → s.written = content) := by
  obtain ⟨chunks, ended, rest, hl, hrest, _, hrunning⟩ := h
  have hdone : s.completed = true → s.written = content := by
    intro hc
    have hsender : s.sender ≠ .sending := by
      intro hs
      have := (hl.open_end (by simp [hs])).2
      rw [hc] at this
      cases this
    have hfinal := hl.final hc
    rwa [hrest.resolve_left hsender, List.append_nil] at hfinal
  refine ⟨?_, hdone⟩
  cases hrunning with
  | inl hr =>
    rw [← hl.account hr, List.append_assoc]
    exact List.prefix_append ..
  | inr hc => rw [hdone hc]

/-! ## Turns of the sender -/

theorem told_sender {effects : List Effect} (h : Told s effects) (env : SenderTurn) :
    Told (s.sendTurn env) effects := by
  have hsame : (s.sendTurn env).completed = s.completed ∧ (s.sendTurn env).written = s.written := by
    cases hs : s.sender with
    | sending =>
      obtain ⟨unread, heq, _⟩ | ⟨n, _, _, heq⟩ := sendTurn_cases hs env
      · rw [heq]
        exact ⟨rfl, rfl⟩
      · rw [heq]
        exact ⟨rfl, rfl⟩
    | ending => cases hsent : env.sent <;> simp [Transfer.sendTurn, hs, hsent]
    | finished => simp [Transfer.sendTurn, hs]
  unfold Told
  rw [hsame.1, hsame.2]
  exact h

/-- Every turn of the sender brings it nearer to its end. -/
theorem delivering_sender (h : Delivering content s) (n : ℕ) :
    Delivering content (s.sendTurn ⟨true, .bytes n, true⟩) ∧
    pending (s.sendTurn ⟨true, .bytes n, true⟩) ≤ pending s - 1 := by
  obtain ⟨chunks, ended, rest, hl, hrest, hfinished, hrunning⟩ := h
  cases hs : s.sender with
  | sending =>
    obtain ⟨unread, heq, hiff⟩ | ⟨k, hne, _, heq⟩ := sendTurn_cases hs ⟨true, .bytes n, true⟩
    · have hempty : s.unread = [] := hiff.mpr (by simp [LeavesEarly])
      rw [heq]
      refine ⟨⟨chunks, ended, rest, ledger_leave hl hs unread, .inr ?_, ?_, hrunning⟩, ?_⟩
      · rw [hl.unread hs, hempty]
      · intro h
        cases h
      · simp [pending, hs]
    · rw [heq]
      refine ⟨⟨_, ended, _, ledger_chunk hl hs hne k, .inl hs, fun h => ?_, hrunning⟩, ?_⟩
      · rw [hs] at h
        cases h
      · have hread : 0 < readCount k := by
          unfold readCount
          omega
        have hlength := List.length_pos_iff.mpr hne
        simp only [pending, hs, List.length_drop]
        omega
  | ending =>
    have hstep : s.sendTurn ⟨true, .bytes n, true⟩ =
        { s with sender := .finished, channel := s.channel ++ [FtpMessage.endOfFile.toBytes] } := by
      simp [Transfer.sendTurn, hs]
    have hl' : Ledger content chunks true rest (s.sendTurn ⟨true, .bytes n, true⟩) := ledger_ending_sent hl hs rfl
    rw [hstep] at hl' ⊢
    refine ⟨⟨chunks, true, rest, hl', .inr (hrest.resolve_left (by simp [hs])),
      fun _ => .inl rfl, hrunning⟩, ?_⟩
    simp [pending]
  | finished =>
    have hstep : s.sendTurn ⟨true, .bytes n, true⟩ = s := by simp [Transfer.sendTurn, hs]
    rw [hstep]
    refine ⟨⟨chunks, ended, rest, hl, hrest, hfinished, hrunning⟩, ?_⟩
    simp [pending, hs]

/-! ## Turns of the receiver -/

theorem recvTurn_takes {message : Bytes} {channel : List Bytes} (hr : s.receiving = true)
    (hc : s.channel = message :: channel) : s.step smoothReceive =
      ({ s with channel := channel }).receive ⟨true, .message, .done, true⟩
      (message.take (FILE_CHUNK_SIZE + 5)) := by
  simp only [Transfer.step, smoothReceive, Transfer.recvTurn, hr, hc, Bool.not_true, Bool.false_eq_true, if_false]

theorem recvTurn_chunk {payload : Bytes} {channel : List Bytes} (hr : s.receiving = true)
    (hc : s.channel = (FtpMessage.fileChunk payload).toBytes :: channel) (hp : IsChunk payload) :
    s.step smoothReceive = { s with channel := channel, written := s.written ++ payload } ∧
      s.effects smoothReceive = [.wrote payload] := by
  have hne : (FtpMessage.fileChunk payload).toBytes.take (FILE_CHUNK_SIZE + 5) ≠ [] := by
    simp [FtpMessage.toBytes]
  constructor
  · rw [recvTurn_takes hr hc, Transfer.receive, if_neg hne, fromBytes_buffered hp]
  · simp only [Transfer.effects, smoothReceive, hr, hc, Bool.not_true, Bool.false_eq_true, if_false,
      fromBytes_buffered hp]

theorem recvTurn_end {channel : List Bytes} (hr : s.receiving = true)
    (hc : s.channel = FtpMessage.endOfFile.toBytes :: channel) :
    s.step smoothReceive = { s with channel := channel, completed := true, receiving := false } ∧
      s.effects smoothReceive = [.fileDownloadCompleted] := by
  have hbuff : FtpMessage.endOfFile.toBytes.take (FILE_CHUNK_SIZE + 5) = FtpMessage.endOfFile.toBytes := rfl
  have hne : FtpMessage.endOfFile.toBytes ≠ [] := by decide
  constructor
  · rw [recvTurn_takes hr hc, hbuff, Transfer.receive, if_neg hne, FtpMessage.fromBytes_endOfFile]
  · simp only [Transfer.effects, smoothReceive, hr, hc, Bool.not_true, Bool.false_eq_true, if_false, hbuff,
      FtpMessage.fromBytes_endOfFile, if_true]

/-- Behind its loop, or with nothing in the channel, the receiver does nothing. -/
theorem recvTurn_idle (h : s.receiving = false ∨ s.channel = []) :
    s.step smoothReceive = s ∧ s.effects smoothReceive = [] := by
  cases hr : s.receiving with
  | false => simp [Transfer.step, smoothReceive, Transfer.recvTurn, Transfer.effects, hr]
  | true =>
    have hc : s.channel = [] := h.resolve_left (by simp [hr])
    simp [Transfer.step, smoothReceive, Transfer.recvTurn, Transfer.effects, hr, hc]

/-- How many messages the receiver has to take before the transfer is over. -/
def waiting (s : Transfer) : ℕ := if s.completed then 0 else s.channel.length

/-- Every turn of the receiver keeps the account, tells what it does and takes a message if there is
one. -/
theorem delivering_receiver (h : Delivering content s) {effects : List Effect} (ht : Told s effects) :
    Delivering content (s.step smoothReceive) ∧ Told (s.step smoothReceive) (effects ++ s.effects smoothReceive) ∧
      (s.step smoothReceive).sender = s.sender ∧ pending (s.step smoothReceive) = pending s ∧
      waiting (s.step smoothReceive) ≤ waiting s - 1 := by
  obtain ⟨chunks, ended, rest, hl, hrest, hfinished, hrunning⟩ := h
  obtain ⟨payloads, heffects, hwritten⟩ := ht
  by_cases hidle : s.receiving = false ∨ s.channel = []
  · obtain ⟨hstep, hnone⟩ := recvTurn_idle hidle
    rw [hstep, hnone, List.append_nil]
    refine ⟨⟨chunks, ended, rest, hl, hrest, hfinished, hrunning⟩,
      ⟨payloads, heffects, hwritten⟩, rfl, rfl, ?_⟩
    unfold waiting
    cases hidle with
    | inl hr => simp [hrunning.resolve_left (by simp [hr])]
    | inr hc => simp [hc]
  · rw [not_or, Bool.not_eq_false] at hidle
    obtain ⟨hr, hne⟩ := hidle
    have hcompleted : s.completed = false := hl.running hr
    rw [hcompleted, if_neg (by simp), List.append_nil] at heffects
    have hqueue := hl.channel_eq
    cases chunks with
    | cons payload chunks =>
      have hc : s.channel = (FtpMessage.fileChunk payload).toBytes :: s.channel.tail := by
        rw [hqueue]
        rfl
      obtain ⟨hstep, heffect⟩ := recvTurn_chunk hr hc (hl.isChunk payload (List.mem_cons_self ..))
      have hl' := ledger_receive_chunk hl hr hc ⟨true, .message, .done, true⟩
      rw [← recvTurn_takes hr hc, hstep] at hl'
      rw [hstep, heffect, heffects]
      refine ⟨⟨chunks, ended, rest, hl', hrest, hfinished, hrunning⟩,
        ⟨payloads ++ [payload], ?_, ?_⟩, rfl, rfl, ?_⟩
      · simp [hcompleted]
      · simp [hwritten]
      · simp [waiting, hcompleted]
    | nil =>
      cases ended with
      | false => exact absurd hqueue hne
      | true =>
        have hc : s.channel = FtpMessage.endOfFile.toBytes :: [] := hqueue
        obtain ⟨hstep, heffect⟩ := recvTurn_end hr hc
        have hl' := ledger_receive_end hl hr ⟨true, .message, .done, true⟩
        rw [← recvTurn_takes hr hc, hstep] at hl'
        rw [hstep, heffect, heffects]
        refine ⟨⟨[], false, rest, hl', hrest, fun _ => .inr rfl, .inr rfl⟩,
          ⟨payloads, rfl, hwritten⟩, rfl, rfl, ?_⟩
        exact Nat.zero_le _

/-! ## Whole runs -/

theorem delivering_step (h : Delivering content s) {effects : List Effect} (ht : Told s effects) {turn : Turn}
    (hsmooth : Smooth turn) :
    Delivering content (s.step turn) ∧ Told (s.step turn) (effects ++ s.effects turn) ∧
      pending (s.step turn) ≤ pending s - if turn.isSender then 1 else 0 := by
  obtain ⟨n, rfl⟩ | rfl := hsmooth
  · obtain ⟨hd, hp⟩ := delivering_sender h n
    refine ⟨hd, ?_, hp⟩
    rw [Transfer.effects, List.append_nil]
    exact told_sender ht _
  · obtain ⟨hd, ht', _, hp, _⟩ := delivering_receiver h ht
    exact ⟨hd, ht', Nat.le_of_eq hp⟩

theorem delivering_run {turns : List Turn} {t : Transfer} {effects : List (List Effect)}
    (hsmooth : ∀ turn ∈ turns, Smooth turn)
    (hrun : deliveryMachine.run (.start content) turns = some (t, effects)) :
    Delivering content t ∧ Told t effects.flatten :=
  deliveryMachine.run_induction (G := fun _ turn => Smooth turn)
    (fun _ effects s => Delivering content s ∧ Told s effects.flatten)
    (fun _ effects s turn s' o h hturn hstep => by
      cases hstep
      obtain ⟨hd, ht, _⟩ := delivering_step h.1 h.2 hturn
      rw [List.flatten_append, List.flatten_singleton]
      exact ⟨hd, ht⟩)
    ⟨delivering_start content, told_start content⟩
    (deliveryMachine.guarded_of_forall fun turn hturn _ => hsmooth turn hturn) hrun

theorem sender_finishes {turns : List Turn} {t : Transfer} {effects : List (List Effect)}
    (hsmooth : ∀ turn ∈ turns, Smooth turn) (hturns : content.length + 2 ≤ turns.countP Turn.isSender)
    (hrun : deliveryMachine.run (.start content) turns = some (t, effects)) : t.sender = .finished := by
  obtain ⟨_, hp⟩ := deliveryMachine.run_measure (G := fun _ turn => Smooth turn) (Delivering content) pending
    Turn.isSender (fun s turn s' o h hturn hstep => by
      cases hstep
      obtain ⟨_, ht⟩ := exists_told s
      obtain ⟨hd, _, hp⟩ := delivering_step h ht hturn
      exact ⟨hd, hp⟩)
    (delivering_start content) (deliveryMachine.guarded_of_forall fun turn hturn _ => hsmooth turn hturn) hrun
  have hstart : pending (.start content) = content.length + 2 := rfl
  rw [hstart] at hp
  cases ht : t.sender with
  | finished => rfl
  | sending =>
    simp only [pending, ht] at hp
    omega
  | ending =>
    simp only [pending, ht] at hp
    omega

/-- There are never more messages on their way than bytes of the content, and `EndOfFile`. -/
theorem waiting_le (h : Delivering content s) : waiting s ≤ content.length + 1 := by
  obtain ⟨chunks, ended, rest, hl, _, _, hrunning⟩ := h
  unfold waiting
  cases hc : s.completed with
  | true => exact Nat.zero_le _
  | false =>
    have haccount := congrArg List.length (hl.account (hrunning.resolve_right (by simp [hc])))
    have hchunks : chunks.length ≤ chunks.flatten.length := by
      have hpos : ∀ n ∈ chunks.map List.length, 1 ≤ n := by
        intro n hn
        obtain ⟨payload, hp, rfl⟩ := List.mem_map.mp hn
        exact List.length_pos_iff.mpr (hl.isChunk payload hp).1
      have hsum := List.length_le_sum_of_one_le _ hpos
      rwa [List.length_map, ← List.length_flatten] at hsum
    have hended : (if ended then [FtpMessage.endOfFile.toBytes] else []).length ≤ 1 := by
      split
      · exact Nat.le_refl 1
      · exact Nat.zero_le 1
    rw [if_neg (by simp), hl.channel_eq]
    simp only [List.length_append, List.length_map] at haccount ⊢
    omega

/-- With the sender at its end and nothing more to take, the download is reported. -/
theorem completed_of_waiting (h : Delivering content s) (hs : s.sender = .finished) (hw : waiting s = 0) :
    s.completed = true := by
  obtain ⟨chunks, ended, rest, hl, _, hfinished, _⟩ := h
  by_contra hc
  have hended : ended = true := (hfinished hs).resolve_right hc
  rw [waiting, if_neg hc, hl.channel_eq, hended] at hw
  simp at hw

theorem receiver_finishes {turns : List Turn} {t : Transfer} {effects : List (List Effect)} (h : Delivering content s)
    (hs : s.sender = .finished) (hsmooth : ∀ turn ∈ turns, Smooth turn)
    (hturns : content.length + 1 ≤ turns.countP fun turn => !turn.isSender)
    (hrun : deliveryMachine.run s turns = some (t, effects)) : t.completed = true := by
  obtain ⟨⟨hd, hsender⟩, hw⟩ := deliveryMachine.run_measure (G := fun _ turn => Smooth turn)
    (fun s => Delivering content s ∧ s.sender = .finished) waiting (fun turn => !turn.isSender)
    (fun s turn s' o h hturn hstep => by
      cases hstep
      obtain ⟨_, ht⟩ := exists_told s
      obtain ⟨n, rfl⟩ | rfl := hturn
      · have hsame : s.step (.sender ⟨true, .bytes n, true⟩) = s := by simp [Transfer.step, Transfer.sendTurn, h.2]
        rw [hsame]
        exact ⟨h, Nat.le_refl _⟩
      · obtain ⟨hd, _, hsender, _, hw⟩ := delivering_receiver h.1 ht
        exact ⟨⟨hd, hsender.trans h.2⟩, hw⟩)
    ⟨h, hs⟩ (deliveryMachine.guarded_of_forall fun turn hturn _ => hsmooth turn hturn) hrun
  apply completed_of_waiting hd hsender
  have := waiting_le h
  omega

theorem deliveryMachine_runs (s : Transfer) (turns : List Turn) :
    ∃ t effects, deliveryMachine.run s turns = some (t, effects) :=
  deliveryMachine.exists_run (fun _ _ => ⟨_, _, rfl⟩) s turns

/-- **Every byte is delivered.** In a transfer in which nothing fails, what the receiver does is to write
the content from its beginning on, piece by piece, and after the last byte, once, to report the
download. It comes to that when the sender has had its turns and then the receiver has. -/
theorem transfer_delivers (content : Bytes) (turns : List Turn) (hsmooth : ∀ turn ∈ turns, Smooth turn) :
    ∃ t effects, deliveryMachine.run (.start content) turns = some (t, effects) ∧
      (∃ payloads : List Bytes,
        effects.flatten = payloads.map .wrote ++ (if t.completed then [.fileDownloadCompleted] else []) ∧
        payloads.flatten <+: content ∧ (t.completed = true → payloads.flatten = content)) ∧
      ∀ before after, turns = before ++ after → content.length + 2 ≤ before.countP Turn.isSender →
        (content.length + 1 ≤ after.countP fun turn => !turn.isSender) → t.completed = true := by
  obtain ⟨t, effects, hrun⟩ := deliveryMachine_runs (.start content) turns
  obtain ⟨hd, payloads, heffects, hwritten⟩ := delivering_run hsmooth hrun
  refine ⟨t, effects, hrun, ⟨payloads, heffects, ?_, ?_⟩, ?_⟩
  · rw [hwritten]
    exact hd.written.1
  · intro hc
    rw [hwritten]
    exact hd.written.2 hc
  · rintro before after rfl hbefore hafter
    rw [List.forall_mem_append] at hsmooth
    obtain ⟨u, _, _, hrun₁, hrun₂, _⟩ := deliveryMachine.run_append_some hrun
    exact receiver_finishes (delivering_run hsmooth.1 hrun₁).1 (sender_finishes hsmooth.1 hbefore hrun₁) hsmooth.2
      hafter hrun₂

/-- Three bytes read in two pieces, with the receiver polling in between. -/
theorem transfer_delivers_three :
    ∃ t effects, deliveryMachine.run (.start [1, 2, 3])
        ([smoothReceive, .sender ⟨true, .bytes 2, true⟩, smoothReceive, smoothSend, smoothSend,
          smoothSend, smoothSend] ++
          [smoothReceive, smoothReceive, smoothReceive, smoothReceive]) = some (t, effects) ∧
      t.completed = true ∧ ∃ payloads : List Bytes,
        effects.flatten = payloads.map .wrote ++ [.fileDownloadCompleted] ∧ payloads.flatten = [1, 2, 3] := by
  obtain ⟨t, effects, hrun, ⟨payloads, heffects, _, hcontent⟩, hend⟩ := transfer_delivers [1, 2, 3]
    ([smoothReceive, .sender ⟨true, .bytes 2, true⟩, smoothReceive, smoothSend, smoothSend,
      smoothSend, smoothSend] ++
      [smoothReceive, smoothReceive, smoothReceive, smoothReceive]) (by
        intro turn hturn
        simp only [List.cons_append, List.nil_append, List.mem_cons, List.not_mem_nil, or_false] at hturn
        obtain rfl | rfl | rfl | rfl | rfl | rfl | rfl | rfl | rfl | rfl | rfl := hturn <;> simp [Smooth, smoothSend])
  have hdone : t.completed = true := hend _ _ rfl (by decide) (by decide)
  rw [if_pos hdone] at heffects
  exact ⟨t, effects, hrun, hdone, payloads, heffects, hcontent hdone⟩

end RoomRtc.File
