import RoomRtc.File.Offers
import RoomRtc.File.Transferer
import RoomRtc.Transport.SctpTransport

/-! The file offers of one side of a call (`file/file_transferer/transferer.rs`): every `send_file` opens a data
channel of its own and leaves it to a thread, the peer's one listener takes the channels and puts the offers
it reads before the user, and every accepted offer has a thread that writes the file. All of these take turns
in any order and anything they call may fail. The files of the other side go over other streams and share
nothing with these. -/
namespace RoomRtc.File
open Text Transport
set_option autoImplicit false

/-! ## The parties -/

/-- Where a call of `send_file` stands. -/
inductive Worker where
  /-- `open_data_channel` waits for the acknowledgement. -/
  | opening
  | offering
  /-- In the loop of `file_offer_accepted`. -/
  | waiting
  /-- Behind `Ok(true)`, as far as `Transfer.sender` says. -/
  | sending
  | done
deriving DecidableEq, Repr

/-- What the peer's listener has made of a stream that was opened. -/
inductive Stream where
  | backlog
  | accepted
  /-- `from_accepted_stream` failed, which sends no acknowledgement. -/
  | failed
deriving DecidableEq, Repr

/-- A data channel with what hangs on both of its ends. -/
structure Channel where
  fileMetadata : FileMetadata
  /-- What the file holds. -/
  content : Bytes
  worker : Worker
  offerId : Option UInt32
  stream : Stream
  /-- The messages to the peer are its `channel`, the offer too. -/
  transfer : Transfer
  /-- How many of the peer's answers the worker has taken. -/
  taken : ℕ
  deriving DecidableEq, Repr

/-- Where the thread of `wait_for_incoming` stands. -/
inductive Listener where
  | accepting
  /-- In the loop of `handle_incoming`. -/
  | reading (dc : DataChannel)
  | stopped
deriving DecidableEq, Repr

structure Exchange where
  transport : SctpTransport
  nextOfferId : UInt32
  channels : DataChannel → Option Channel
  listener : Listener
  /-- The peer's pending offers, its answers and its downloads. -/
  answering : Answering
  /-- The offers put before the peer's user, `RemoteFileOffer(offer_id, file_metadata)`. -/
  events : List (UInt32 × FileMetadata)

def Channel.opening (fileMetadata : FileMetadata) (content : Bytes) : Channel where
  fileMetadata := fileMetadata
  content := content
  worker := .opening
  offerId := none
  stream := .backlog
  transfer := .start content
  taken := 0

def Channel.setChannel (c : Channel) (channel : List Bytes) : Channel :=
  { c with transfer := { c.transfer with channel := channel } }

/-- What a list of pairs has under a key, in order. -/
def under {α β : Type} [DecidableEq α] (key : α) (l : List (α × β)) : List β :=
  l.filterMap fun x => if x.1 = key then some x.2 else none

namespace Exchange

def new (isClient : Bool) : Exchange where
  transport := SctpTransport.new.connect isClient
  nextOfferId := 0
  channels := fun _ => none
  listener := .accepting
  answering := ⟨fun _ => none, [], []⟩
  events := []

/-- The channel that `open_data_channel` asks for next. -/
def nextChannel (s : Exchange) : DataChannel := ⟨s.transport.nextStreamId⟩

def setChannel (s : Exchange) (dc : DataChannel) (c : Channel) : Exchange :=
  { s with channels := Function.update s.channels dc (some c) }

/-- What the peer has sent on a channel. -/
def answersOn (s : Exchange) (dc : DataChannel) : List FtpMessage := under dc s.answering.sent

/-! ## The sending side -/

/-- `send_file` up to where it waits for the acknowledgement, if `open_stream` gives it a stream. -/
def sendFile (s : Exchange) (fileMetadata : FileMetadata) (content : Bytes) (openStream : Bool) : Exchange :=
  if openStream then s.setChannel s.nextChannel (.opening fileMetadata content) else s

/-- The acknowledgement comes: `send_file` takes an id and starts its thread. The additions are in `u16` and
`u32`, which a release build lets wrap. -/
def opened (s : Exchange) : Exchange :=
  match s.channels s.nextChannel with
  | none => s
  | some c =>
    if c.worker = .opening ∧ c.stream = .accepted then
      { s.setChannel s.nextChannel { c with worker := .offering, offerId := some s.nextOfferId } with
        transport := ⟨s.transport.nextStreamId + 2⟩
        nextOfferId := s.nextOfferId + 1 }
    else s

/-- No acknowledgement in time, or a failed read: `send_file` returns the error. -/
def openFailed (s : Exchange) : Exchange :=
  match s.channels s.nextChannel with
  | none => s
  | some c => if c.worker = .opening then s.setChannel s.nextChannel { c with worker := .done } else s

end Exchange

/-- What the thread of `send_file` meets in one turn. -/
structure WorkerTurn where
  recv : RecvOutcome
  sender : SenderTurn
  deriving DecidableEq, Repr

/-- One turn of the thread of `send_file`. -/
def Channel.workerTurn (c : Channel) (answers : List FtpMessage) (env : WorkerTurn) : Channel :=
  match c.worker, c.offerId with
  | .offering, some offerId =>
    let message := (FtpMessage.fileOffer offerId c.fileMetadata).toBytes
    if env.sender.sent then { c.setChannel (c.transfer.channel ++ [message]) with worker := .waiting }
    else { c with worker := .done }
  | .waiting, _ =>
    match env.recv, answers[c.taken]? with
    | .failed, _ => { c with worker := .done }
    -- no bytes are no message, and `recv` polls until there is something
    | .closed, _ => c
    | .message, none => c
    | .message, some answer =>
      let c := { c with taken := c.taken + 1 }
      match FtpMessage.fromBytes (answer.toBytes.take 1024) with
      | some .rejectFile => { c with worker := .done }
      | some .acceptFile => { c with worker := .sending }
      | _ => c
  | .sending, _ => { c with transfer := c.transfer.sendTurn env.sender }
  | _, _ => c

/-! ## The listener and the user of the peer -/

/-- What the listener meets in one turn of the loop of `handle_incoming`. -/
structure ListenerTurn where
  recv : RecvOutcome
  /-- The lock of the pending channels is not poisoned. -/
  locked : Bool
  eventSent : Bool
  deriving DecidableEq, Repr

namespace Exchange

/-- `accept_data_channel`, when the stream is there. A failed one is passed over. -/
def acceptDataChannel (s : Exchange) (dc : DataChannel) (opened : Bool) : Exchange :=
  match s.listener, s.channels dc with
  | .accepting, some c =>
    if c.stream = .backlog then
      if opened then { s.setChannel dc { c with stream := .accepted } with listener := .reading dc }
      else s.setChannel dc { c with stream := .failed }
    else s
  | _, _ => s

/-- The flag is down when the listener looks at it, between two channels. -/
def disconnected (s : Exchange) : Exchange :=
  match s.listener with
  | .accepting => { s with listener := .stopped }
  | _ => s

/-- `handle_incoming` has read an offer. -/
def insertOffer (s : Exchange) (dc : DataChannel) (offerId : UInt32) (fileMetadata : FileMetadata)
    (env : ListenerTurn) : Exchange :=
  if !env.locked then { s with listener := .stopped }
  else
    let pending := Function.update s.answering.pendingDataChannels offerId (some dc)
    let s := { s with answering := { s.answering with pendingDataChannels := pending } }
    if env.eventSent then { s with events := s.events ++ [(offerId, fileMetadata)], listener := .accepting }
    else { s with listener := .stopped }

/-- One turn of the loop of `handle_incoming`. -/
def handleIncoming (s : Exchange) (env : ListenerTurn) : Exchange :=
  match s.listener with
  | .reading dc =>
    match env.recv, s.channels dc with
    | .failed, _ => { s with listener := .stopped }
    | .message, some c =>
      match c.transfer.channel with
      | [] => s
      | message :: channel =>
        let s := s.setChannel dc (c.setChannel channel)
        match FtpMessage.fromBytes (message.take (FILE_CHUNK_SIZE + 5)) with
        | some (.fileOffer offerId fileMetadata) => s.insertOffer dc offerId fileMetadata env
        | _ => s
    | _, _ => s
  | _ => s

/-- One turn of the worker of `recv_file`, if there is one for the channel. -/
def download (s : Exchange) (dc : DataChannel) (env : ReceiverTurn) : Exchange :=
  match s.channels dc with
  | none => s
  | some c =>
    if dc ∈ s.answering.downloads.map Prod.snd then
      s.setChannel dc { c with transfer := c.transfer.recvTurn env }
    else s

/-- One turn of the thread that `send_file` started for the channel. -/
def work (s : Exchange) (dc : DataChannel) (env : WorkerTurn) : Exchange :=
  match s.channels dc with
  | none => s
  | some c => s.setChannel dc (c.workerTurn (s.answersOn dc) env)

end Exchange

inductive ExchangeMove where
  | sendFile (fileMetadata : FileMetadata) (content : Bytes) (openStream : Bool)
  | opened
  | openFailed
  | work (dc : DataChannel) (env : WorkerTurn)
  | acceptDataChannel (dc : DataChannel) (opened : Bool)
  | disconnected
  | handleIncoming (env : ListenerTurn)
  | acceptFileOffer (offerId : UInt32) (steps : AnswerSteps)
  | rejectFileOffer (offerId : UInt32) (steps : AnswerSteps)
  | download (dc : DataChannel) (env : ReceiverTurn)

def Exchange.step (s : Exchange) : ExchangeMove → Exchange
  | .sendFile fileMetadata content openStream => s.sendFile fileMetadata content openStream
  | .opened => s.opened
  | .openFailed => s.openFailed
  | .work dc env => s.work dc env
  | .acceptDataChannel dc opened => s.acceptDataChannel dc opened
  | .disconnected => s.disconnected
  | .handleIncoming env => s.handleIncoming env
  | .acceptFileOffer offerId steps => { s with answering := (s.answering.acceptFileOffer offerId steps).1 }
  | .rejectFileOffer offerId steps => { s with answering := (s.answering.rejectFileOffer offerId steps).1 }
  | .download dc env => s.download dc env

def exchangeMachine : Machine Exchange ExchangeMove Unit where
  step s move := some (s.step move, ())

/-- `open_stream` of an association refuses a stream that is there. -/
def Exchange.OpensNew (s : Exchange) : ExchangeMove → Prop
  | .sendFile _ _ openStream => openStream = true → s.channels s.nextChannel = none
  | _ => True

instance Exchange.decidableOpensNew (s : Exchange) : (move : ExchangeMove) → Decidable (s.OpensNew move)
  | .sendFile _ _ openStream => inferInstanceAs (Decidable (openStream = true → s.channels s.nextChannel = none))
  | .opened | .openFailed | .work _ _ | .acceptDataChannel _ _ | .disconnected | .handleIncoming _
  | .acceptFileOffer _ _ | .rejectFileOffer _ _ | .download _ _ => inferInstanceAs (Decidable True)

end RoomRtc.File
