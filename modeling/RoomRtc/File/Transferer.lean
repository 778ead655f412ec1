import RoomRtc.File.FtpMessage
import RoomRtc.Foundations.Machine

/-! One file transfer after the offer was accepted (`file/file_transferer/transferer.rs`): the
worker of `send_file`, the reliable ordered data channel and the worker of `recv_file`, turn by
turn in any interleaving and with any failure of the file, the channel or the connection. When
a download that is reported as completed is the whole file. -/
namespace RoomRtc.File
open Text
set_option autoImplicit false

def FILE_CHUNK_SIZE : ℕ := 512

/-! ## The two workers -/

/-- Where the worker of `send_file` stands: in its chunk loop, behind it with `EndOfFile` still
to be sent, or at its end. -/
inductive SenderPoint where
  | sending
  | ending
  | finished
deriving DecidableEq, Repr

structure Transfer where
  /-- What the sender's file handle has not returned yet. -/
  unread : Bytes
  sender : SenderPoint
  /-- Messages sent and not received yet, oldest first. -/
  channel : List Bytes
  /-- The receiver is in its loop. -/
  receiving : Bool
  written : Bytes
  writeFailed : Bool
  /-- `FileDownloadCompleted` was emitted. -/
  completed : Bool
  deriving DecidableEq, Repr

def Transfer.start (content : Bytes) : Transfer where
  unread := content
  sender := .sending
  channel := []
  receiving := true
  written := []
  writeFailed := false
  completed := false

/-- How `File::read` ends: with an error or with as many bytes as the system sees fit to give. -/
inductive ReadOutcome where
  | failed
  | bytes (n : ℕ)
deriving DecidableEq, Repr

/-- A read into a buffer of `FILE_CHUNK_SIZE` bytes gives at least one byte before the end of
the file and none at it. -/
def readCount (n : ℕ) : ℕ := max 1 (min n FILE_CHUNK_SIZE)

/-- What the sender meets in one turn: the flag as it loads it, its file and its channel. -/
structure SenderTurn where
  connected : Bool
  read : ReadOutcome
  sent : Bool
  deriving DecidableEq, Repr

/-- One turn of the worker of `send_file`. Every way out of the chunk loop leads to the same
tail. -/
def Transfer.sendTurn (s : Transfer) (env : SenderTurn) : Transfer :=
  match s.sender with
  | .sending =>
    if !env.connected then { s with sender := .ending }
    else
      match env.read with
      | .failed => { s with sender := .ending }
      | .bytes n =>
        let buff := s.unread.take (readCount n)
        let unread := s.unread.drop (readCount n)
        if buff = [] then { s with unread := unread, sender := .ending }
        else
          let message := (FtpMessage.fileChunk buff).toBytes
          if env.sent then { s with unread := unread, channel := s.channel ++ [message] }
          else { s with unread := unread, sender := .ending }
  | .ending =>
    let message := FtpMessage.endOfFile.toBytes
    if env.sent then { s with sender := .finished, channel := s.channel ++ [message] }
    else { s with sender := .finished }
  | .finished => s

/-- How `DataChannel::recv` ends: with an error, with no bytes, or with the next message. -/
inductive RecvOutcome where
  | failed
  | closed
  | message
deriving DecidableEq, Repr

/-- How `write_all` ends; a failed one may have written a part. -/
inductive WriteOutcome where
  | done
  | failed (n : ℕ)
deriving DecidableEq, Repr

structure ReceiverTurn where
  connected : Bool
  recv : RecvOutcome
  write : WriteOutcome
  /-- The application still takes events. -/
  eventSent : Bool
  deriving DecidableEq, Repr

/-- The receiver has a message in its buffer. -/
def Transfer.receive (s : Transfer) (env : ReceiverTurn) (buff : Bytes) : Transfer :=
  if buff = [] then { s with receiving := false }
  else
    match FtpMessage.fromBytes buff with
    | some (.fileChunk payload) =>
      match env.write with
      | .done => { s with written := s.written ++ payload }
      | .failed n => { s with written := s.written ++ payload.take n, writeFailed := true, receiving := false }
    | some .endOfFile => { s with completed := env.eventSent, receiving := false }
    | _ => s

/-- One turn of the worker of `recv_file`. -/
def Transfer.recvTurn (s : Transfer) (env : ReceiverTurn) : Transfer :=
  if !s.receiving then s
  else if !env.connected then { s with receiving := false }
  else
    match env.recv, s.channel with
    | .failed, _ => { s with receiving := false }
    | .closed, _ => { s with receiving := false }
    -- `recv` polls until there is something
    | .message, [] => s
    | .message, message :: channel =>
      ({ s with channel := channel }).receive env (message.take (FILE_CHUNK_SIZE + 5))

inductive Turn where
  | sender (env : SenderTurn)
  | receiver (env : ReceiverTurn)
deriving DecidableEq, Repr

def Transfer.step (s : Transfer) : Turn → Transfer
  | .sender env => s.sendTurn env
  | .receiver env => s.recvTurn env

def transferMachine : Machine Transfer Turn Unit where
  step s turn := some (s.step turn, ())

/-! ## What has become of the content -/

/-- A chunk as the sender makes them. -/
def IsChunk (payload : Bytes) : Prop := payload ≠ [] ∧ payload.length ≤ FILE_CHUNK_SIZE

/-- The account of a transfer: `chunks` are on their way, `rest` never gets on it, and `ended`
says that `EndOfFile` is on its way too. -/
structure Ledger (content : Bytes) (chunks : List Bytes) (ended : Bool) (rest : Bytes) (s : Transfer) : Prop where
  channel_eq : s.channel = chunks.map (fun payload => (FtpMessage.fileChunk payload).toBytes) ++
    if ended then [FtpMessage.endOfFile.toBytes] else []
  isChunk : ∀ payload ∈ chunks, IsChunk payload
  account : s.receiving = true → s.written ++ chunks.flatten ++ rest = content
  final : s.completed = true → s.written ++ rest = content
  unread : s.sender = .sending → rest = s.unread
  open_end : s.sender ≠ .finished → ended = false ∧ s.completed = false
  running : s.receiving = true → s.completed = false

/-- The sender leaves its chunk loop with a part of the file unsent: the flag is down, the read
fails, or the chunk cannot be sent. -/
def LeavesEarly (s : Transfer) : Turn → Prop
  | .sender env => s.sender = .sending ∧ s.unread ≠ [] ∧
      (env.connected = false ∨ env.read = .failed ∨ env.sent = false)
  | .receiver _ => False

instance (s : Transfer) (turn : Turn) : Decidable (LeavesEarly s turn) := by
  cases turn <;> unfold LeavesEarly <;> infer_instance

theorem ledger_start (content : Bytes) : Ledger content [] false content (.start content) where
  channel_eq := rfl
  isChunk := by simp
  account := fun _ => rfl
  final := fun h => by cases h
  unread := fun _ => rfl
  open_end := fun _ => ⟨rfl, rfl⟩
  running := fun _ => rfl

variable {content rest : Bytes} {chunks : List Bytes} {ended : Bool} {s : Transfer}

/-- The sender leaves its loop and what it had not read stays behind. -/
theorem ledger_leave (h : Ledger content chunks ended rest s) (hs : s.sender = .sending) (unread : Bytes) :
    Ledger content chunks ended rest { s with unread := unread, sender := .ending } where
  channel_eq := h.channel_eq
  isChunk := h.isChunk
  account := h.account
  final := h.final
  unread := fun he => by cases he
  open_end := fun _ => h.open_end (by simp [hs])
  running := h.running

theorem take_readCount_ne_nil {unread : Bytes} (h : unread ≠ []) (n : ℕ) : unread.take (readCount n) ≠ [] := by
  have : 0 < readCount n := by
    unfold readCount
    omega
  intro he
  rw [List.take_eq_nil_iff] at he
  cases he with
  | inl he => omega
  | inr he => exact h he

theorem isChunk_take {unread : Bytes} (h : unread ≠ []) (n : ℕ) : IsChunk (unread.take (readCount n)) := by
  refine ⟨take_readCount_ne_nil h n, ?_⟩
  have : readCount n ≤ FILE_CHUNK_SIZE := by
    unfold readCount FILE_CHUNK_SIZE
    omega
  rw [List.length_take]
  omega

theorem ledger_chunk (h : Ledger content chunks ended rest s) (hs : s.sender = .sending)
    (hne : s.unread ≠ []) (n : ℕ) :
    Ledger content (chunks ++ [s.unread.take (readCount n)]) ended (s.unread.drop (readCount n))
      { s with
        unread := s.unread.drop (readCount n)
        channel := s.channel ++ [(FtpMessage.fileChunk (s.unread.take (readCount n))).toBytes] } := by
  obtain ⟨hended, hcompleted⟩ := h.open_end (by simp [hs])
  have hrest := h.unread hs
  subst hended
  constructor
  · simp [h.channel_eq]
  · intro payload hp
    rw [List.mem_append, List.mem_singleton] at hp
    cases hp with
    | inl hp => exact h.isChunk payload hp
    | inr hp =>
      rw [hp]
      exact isChunk_take hne n
  · intro hr
    have := h.account hr
    rw [hrest] at this
    simpa using this
  · intro hc
    exact absurd hc (by simp [hcompleted])
  · exact fun _ => rfl
  · exact fun _ => ⟨rfl, hcompleted⟩
  · exact h.running

/-- One turn of the sender in its chunk loop: it leaves the loop, or a chunk goes out. -/
theorem sendTurn_cases (hs : s.sender = .sending) (env : SenderTurn) :
    (∃ unread, s.sendTurn env = { s with unread := unread, sender := .ending } ∧
      (s.unread = [] ↔ ¬LeavesEarly s (.sender env))) ∨
    ∃ n, s.unread ≠ [] ∧ ¬LeavesEarly s (.sender env) ∧ s.sendTurn env = { s with
      unread := s.unread.drop (readCount n)
      channel := s.channel ++ [(FtpMessage.fileChunk (s.unread.take (readCount n))).toBytes] } := by
  cases hconn : env.connected with
  | false =>
    refine .inl ⟨s.unread, ?_, ?_⟩
    · simp [Transfer.sendTurn, hs, hconn]
    · simp [LeavesEarly, hs, hconn]
  | true =>
    cases hread : env.read with
    | failed =>
      refine .inl ⟨s.unread, ?_, ?_⟩
      · simp [Transfer.sendTurn, hs, hconn, hread]
      · simp [LeavesEarly, hs, hread]
    | bytes n =>
      by_cases hne : s.unread = []
      · refine .inl ⟨s.unread.drop (readCount n), ?_, ?_⟩
        · simp [Transfer.sendTurn, hs, hconn, hread, hne]
        · simp [LeavesEarly, hne]
      · have htake := take_readCount_ne_nil hne n
        cases hsent : env.sent with
        | false =>
          refine .inl ⟨s.unread.drop (readCount n), ?_, ?_⟩
          · simp only [Transfer.sendTurn, hs, hconn, hread, hsent, htake, Bool.not_true, Bool.false_eq_true, if_false]
          · simp [LeavesEarly, hs, hsent]
        | true =>
          refine .inr ⟨n, hne, ?_, ?_⟩
          · simp [LeavesEarly, hconn, hread, hsent]
          · simp only [Transfer.sendTurn, hs, hconn, hread, hsent, htake, Bool.not_true, Bool.false_eq_true,
              if_false, if_true]

/-- In its chunk loop the sender goes on, or leaves with nothing left behind, just when it does
not leave early. -/
theorem ledger_sending (h : Ledger content chunks ended rest s) (hs : s.sender = .sending) (env : SenderTurn) :
    ∃ chunks' rest', Ledger content chunks' ended rest' (s.sendTurn env) ∧
      (((s.sendTurn env).sender = .sending ∨ rest' = []) ↔ ¬LeavesEarly s (.sender env)) := by
  obtain ⟨unread, heq, hiff⟩ | ⟨n, hne, hearly, heq⟩ := sendTurn_cases hs env
  · refine ⟨chunks, rest, ?_, ?_⟩
    · rw [heq]
      exact ledger_leave h hs unread
    · rw [heq, h.unread hs, ← hiff]
      simp
  · refine ⟨chunks ++ [s.unread.take (readCount n)], s.unread.drop (readCount n), ?_, ?_⟩
    · rw [heq]
      exact ledger_chunk h hs hne n
    · rw [heq]
      exact iff_of_true (.inl hs) hearly

theorem ledger_ending_sent (h : Ledger content chunks ended rest s) (hs : s.sender = .ending) {env : SenderTurn}
    (hsent : env.sent = true) : Ledger content chunks true rest (s.sendTurn env) := by
  obtain ⟨hended, _⟩ := h.open_end (by simp [hs])
  subst hended
  simp only [Transfer.sendTurn, hs, hsent, if_true]
  constructor
  · simp [h.channel_eq]
  · exact h.isChunk
  · exact h.account
  · exact h.final
  · exact fun he => by cases he
  · exact fun hne => absurd rfl hne
  · exact h.running

theorem ledger_ending (h : Ledger content chunks ended rest s) (hs : s.sender = .ending) (env : SenderTurn) :
    ∃ ended', Ledger content chunks ended' rest (s.sendTurn env) ∧ (s.sendTurn env).sender = .finished := by
  cases hsent : env.sent with
  | true => exact ⟨true, ledger_ending_sent h hs hsent, by simp [Transfer.sendTurn, hs, hsent]⟩
  | false =>
    obtain ⟨hended, _⟩ := h.open_end (by simp [hs])
    subst hended
    refine ⟨false, ?_, by simp [Transfer.sendTurn, hs, hsent]⟩
    simp only [Transfer.sendTurn, hs, hsent, Bool.false_eq_true, if_false]
    constructor
    · exact h.channel_eq
    · exact h.isChunk
    · exact h.account
    · exact h.final
    · exact fun he => by cases he
    · exact fun hne => absurd rfl hne
    · exact h.running

theorem ledger_stop (h : Ledger content chunks ended rest s) :
    Ledger content chunks ended rest { s with receiving := false } where
  channel_eq := h.channel_eq
  isChunk := h.isChunk
  account := fun hr => by cases hr
  final := h.final
  unread := h.unread
  open_end := h.open_end
  running := fun hr => by cases hr

/-- A chunk fits into the receiver's buffer and is read back from it. -/
theorem fromBytes_buffered {payload : Bytes} (h : IsChunk payload) :
    FtpMessage.fromBytes ((FtpMessage.fileChunk payload).toBytes.take (FILE_CHUNK_SIZE + 5)) =
      some (.fileChunk payload) := by
  have hsize : payload.length ≤ 512 := h.2
  have hlen : (FtpMessage.fileChunk payload).toBytes.length ≤ FILE_CHUNK_SIZE + 5 := by
    simp [FtpMessage.toBytes, FILE_CHUNK_SIZE]
    omega
  have := FtpMessage.fromBytes_fileChunk (show payload.length < 2 ^ 32 by omega) []
  rw [List.append_nil] at this
  rw [List.take_of_length_le hlen, this]

theorem ledger_receive_chunk {payload : Bytes} {channel : List Bytes}
    (h : Ledger content (payload :: chunks) ended rest s) (hr : s.receiving = true)
    (hc : s.channel = (FtpMessage.fileChunk payload).toBytes :: channel) (env : ReceiverTurn) :
    Ledger content chunks ended rest (({ s with channel := channel }).receive env
      ((FtpMessage.fileChunk payload).toBytes.take (FILE_CHUNK_SIZE + 5))) := by
  have hne : (FtpMessage.fileChunk payload).toBytes.take (FILE_CHUNK_SIZE + 5) ≠ [] := by
    simp [FtpMessage.toBytes]
  have hchannel : channel = chunks.map (fun payload => (FtpMessage.fileChunk payload).toBytes) ++
      if ended then [FtpMessage.endOfFile.toBytes] else [] := by
    have := h.channel_eq
    rw [hc, List.map_cons, List.cons_append] at this
    exact (List.cons.inj this).2
  have hrest : ∀ p ∈ chunks, IsChunk p := fun p hp => h.isChunk p (List.mem_cons_of_mem payload hp)
  have hcompleted := h.running hr
  rw [Transfer.receive, if_neg hne, fromBytes_buffered (h.isChunk payload (List.mem_cons_self ..))]
  cases env.write with
  | done =>
    constructor
    · exact hchannel
    · exact hrest
    · intro _
      have := h.account hr
      simpa using this
    · exact fun hd => absurd hd (by simp [hcompleted])
    · exact h.unread
    · exact h.open_end
    · exact fun _ => hcompleted
  | failed n =>
    constructor
    · exact hchannel
    · exact hrest
    · exact fun he => by cases he
    · exact fun hd => absurd hd (by simp [hcompleted])
    · exact h.unread
    · exact h.open_end
    · exact fun he => by cases he

theorem ledger_receive_end (h : Ledger content [] true rest s) (hr : s.receiving = true) (env : ReceiverTurn) :
    Ledger content [] false rest (({ s with channel := [] }).receive env
      (FtpMessage.endOfFile.toBytes.take (FILE_CHUNK_SIZE + 5))) := by
  have hbuff : FtpMessage.endOfFile.toBytes.take (FILE_CHUNK_SIZE + 5) = FtpMessage.endOfFile.toBytes := rfl
  rw [hbuff, Transfer.receive, if_neg (by decide), FtpMessage.fromBytes_endOfFile]
  constructor
  · rfl
  · exact h.isChunk
  · exact fun he => by cases he
  · intro _
    have := h.account hr
    simpa using this
  · exact h.unread
  · exact fun hne => absurd (h.open_end hne).1 (by decide)
  · exact fun he => by cases he

theorem receive_sender (env : ReceiverTurn) (buff : Bytes) : (s.receive env buff).sender = s.sender := by
  unfold Transfer.receive
  split
  · rfl
  · split
    · split <;> rfl
    · rfl
    · rfl

/-- One turn of the receiver: nothing happens, it leaves its loop, or it takes a message. -/
theorem recvTurn_cases (s : Transfer) (env : ReceiverTurn) :
    s.recvTurn env = s ∨ s.recvTurn env = { s with receiving := false } ∨
    ∃ message channel, s.receiving = true ∧ s.channel = message :: channel ∧ s.recvTurn env =
      ({ s with channel := channel }).receive env (message.take (FILE_CHUNK_SIZE + 5)) := by
  unfold Transfer.recvTurn
  cases hr : s.receiving with
  | false => exact .inl rfl
  | true =>
    cases env.connected with
    | false => exact .inr (.inl rfl)
    | true =>
      cases env.recv with
      | failed => exact .inr (.inl rfl)
      | closed => exact .inr (.inl rfl)
      | message =>
        cases hc : s.channel with
        | nil => exact .inl rfl
        | cons message channel => exact .inr (.inr ⟨message, channel, rfl, rfl, rfl⟩)

theorem ledger_receiver (h : Ledger content chunks ended rest s) (env : ReceiverTurn) :
    ∃ chunks' ended', Ledger content chunks' ended' rest (s.recvTurn env) ∧
      (s.recvTurn env).sender = s.sender := by
  obtain heq | heq | ⟨message, channel, hr, hc, heq⟩ := recvTurn_cases s env
  · rw [heq]
    exact ⟨chunks, ended, h, rfl⟩
  · rw [heq]
    exact ⟨chunks, ended, ledger_stop h, rfl⟩
  · rw [heq, receive_sender]
    have hqueue := h.channel_eq
    rw [hc] at hqueue
    cases chunks with
    | cons payload chunks =>
      obtain ⟨rfl, _⟩ := List.cons.inj hqueue
      exact ⟨chunks, ended, ledger_receive_chunk h hr hc env, rfl⟩
    | nil =>
      cases ended with
      | false => cases hqueue
      | true =>
        obtain ⟨rfl, rfl⟩ := List.cons.inj hqueue
        exact ⟨[], false, ledger_receive_end h hr env, rfl⟩

/-! ## Whole runs -/

/-- Nothing is left behind after the turns, or the sender is still at it, just when `kept`:
it did not leave early on the way. -/
def Accounted (content : Bytes) (kept : Prop) (s : Transfer) : Prop :=
  ∃ chunks ended rest, Ledger content chunks ended rest s ∧ ((s.sender = .sending ∨ rest = []) ↔ kept)

theorem accounted_step {kept : Prop} (h : Accounted content kept s) (turn : Turn) :
    Accounted content (kept ∧ ¬LeavesEarly s turn) (s.step turn) := by
  obtain ⟨chunks, ended, rest, hl, hkept⟩ := h
  cases turn with
  | receiver env =>
    obtain ⟨chunks', ended', hl', hsender⟩ := ledger_receiver hl env
    refine ⟨chunks', ended', rest, hl', ?_⟩
    rw [Transfer.step, hsender, hkept]
    simp [LeavesEarly]
  | sender env =>
    cases hs : s.sender with
    | sending =>
      obtain ⟨chunks', rest', hl', hiff⟩ := ledger_sending hl hs env
      refine ⟨chunks', ended, rest', hl', ?_⟩
      rw [Transfer.step, hiff, ← hkept]
      simp [hs]
    | ending =>
      obtain ⟨ended', hl', hsender⟩ := ledger_ending hl hs env
      refine ⟨chunks, ended', rest, hl', ?_⟩
      rw [Transfer.step, hsender, ← hkept]
      simp [hs, LeavesEarly]
    | finished =>
      have hsame : s.step (.sender env) = s := by simp [Transfer.step, Transfer.sendTurn, hs]
      rw [hsame]
      refine ⟨chunks, ended, rest, hl, ?_⟩
      rw [hkept]
      simp [hs, LeavesEarly]

/-- The sender never leaves its chunk loop with a part of the file unsent. -/
def SendsAll (content : Bytes) (turns : List Turn) : Prop :=
  transferMachine.Guarded (fun s turn => ¬LeavesEarly s turn) (.start content) turns

theorem sendsAll_concat {turns : List Turn} {turn : Turn} {os : List Unit}
    (hrun : transferMachine.run (.start content) turns = some (s, os)) :
    SendsAll content (turns ++ [turn]) ↔ SendsAll content turns ∧ ¬LeavesEarly s turn := by
  constructor
  · intro h
    exact ⟨transferMachine.guarded_left h, (transferMachine.guarded_append h hrun).1⟩
  · intro h
    apply transferMachine.guarded_append_intro h.1
    intro t os' ht
    cases hrun.symm.trans ht
    exact ⟨h.2, fun _ _ _ => trivial⟩

theorem accounted_run {turns : List Turn} {t : Transfer} {os : List Unit}
    (hrun : transferMachine.run (.start content) turns = some (t, os)) :
    Accounted content (SendsAll content turns) t := by
  have h := transferMachine.run_induction (G := fun _ _ => True)
    (fun turns os s => transferMachine.run (.start content) turns = some (s, os) ∧
      Accounted content (SendsAll content turns) s)
    (fun turns os s turn s' o h _ hstep => by
      have hrun' := transferMachine.run_append h.1 (transferMachine.run_cons hstep (transferMachine.run_nil s'))
      refine ⟨hrun', ?_⟩
      cases hstep
      rw [sendsAll_concat h.1]
      exact accounted_step h.2 turn)
    ⟨rfl, [], false, content, ledger_start content, iff_of_true (.inl rfl) trivial⟩
    (transferMachine.guarded_of_forall fun _ _ _ => trivial) hrun
  exact h.2

/-- **When a finished download is the whole file.** In every run in which the receiver reports
the download as completed, what it wrote is the content of the file just when the sender did
not leave its chunk loop early. -/
theorem download_whole_iff {content : Bytes} {turns : List Turn} {t : Transfer} {os : List Unit}
    (hrun : transferMachine.run (.start content) turns = some (t, os)) (hdone : t.completed = true) :
    t.written = content ↔ SendsAll content turns := by
  obtain ⟨chunks, ended, rest, hl, hkept⟩ := accounted_run hrun
  have hfinal := hl.final hdone
  have hsender : t.sender ≠ .sending := by
    intro hs
    have := (hl.open_end (by simp [hs])).2
    rw [hdone] at this
    cases this
  rw [← hkept, ← hfinal]
  simp [hsender]

/-! ## Two transfers -/

/-- A turn of the sender in which nothing fails. -/
def smoothSend : Turn := .sender ⟨true, .bytes 512, true⟩

/-- A turn of the receiver in which nothing fails. -/
def smoothReceive : Turn := .receiver ⟨true, .message, .done, true⟩

/-- A file of three bytes goes over in one chunk. -/
theorem three_bytes_whole :
    ∃ t os, transferMachine.run (.start [1, 2, 3])
        [smoothSend, smoothSend, smoothSend, smoothReceive, smoothReceive] = some (t, os) ∧
      t.completed = true ∧ t.written = [1, 2, 3] := by
  have hrun : transferMachine.run (.start [1, 2, 3])
      [smoothSend, smoothSend, smoothSend, smoothReceive, smoothReceive] =
        some (⟨[], .finished, [], false, [1, 2, 3], false, true⟩, [(), (), (), (), ()]) := by
    decide
  have hall : SendsAll [1, 2, 3] [smoothSend, smoothSend, smoothSend, smoothReceive, smoothReceive] := by
    unfold SendsAll
    apply transferMachine.guarded_of_forall
    intro turn hturn t
    simp only [List.mem_cons, List.not_mem_nil, or_false] at hturn
    obtain rfl | rfl | rfl | rfl | rfl := hturn <;> simp [smoothSend, smoothReceive, LeavesEarly]
  exact ⟨_, _, hrun, rfl, (download_whole_iff hrun rfl).mpr hall⟩

/-- The second read fails after two of three bytes, `EndOfFile` is sent all the same, and the
receiver reports two bytes as the completed download. -/
theorem failed_read_truncates :
    ∃ t os, transferMachine.run (.start [1, 2, 3])
        [.sender ⟨true, .bytes 2, true⟩, .sender ⟨true, .failed, true⟩, smoothSend,
          smoothReceive, smoothReceive] = some (t, os) ∧
      t.completed = true ∧ t.writeFailed = false ∧ t.written ≠ [1, 2, 3] :=
  ⟨⟨[3], .finished, [], false, [1, 2], false, true⟩, [(), (), (), (), ()], by decide, rfl, rfl, by decide⟩

end RoomRtc.File
