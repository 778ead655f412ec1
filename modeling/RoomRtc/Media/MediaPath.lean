import RoomRtc.Foundations.Channels
import RoomRtc.Jitter.Buffer
import RoomRtc.Media.Sender
import RoomRtc.Transport.MediaTransport
import RoomRtc.Transport.RtcpPacket

/-! One direction of a call, from the encoders of one side to the playback of the other: the two
sender threads (`start_encoded_sender_thread`, `start_audio_sender_pipeline`), the protection layer,
the RTP sender, the network, the RTP receiver, the unprotection layer, the demuxer
(`start_remote_pipeline`) and the remote frame pipeline. Every thread takes its turns when it
likes. The network loses, repeats and reorders datagrams and brings foreign ones. -/
namespace RoomRtc.Media
open Transport Srtp Jitter
set_option autoImplicit false

/-- The largest payload of a UDP datagram: `send` fails for anything longer. -/
def maxDatagram : ℕ := 65507

/-- The fields of `MediaConfig` that the pipelines of a call read. -/
structure CallMediaConfig extends MediaConfig where
  audioPayloadType : UInt8
  audioSsrc : UInt32
  deriving DecidableEq, Repr

/-- What does not change during a call. Both sides have derived one context; the sending side is
the client of the handshake or not, and each side has a configuration file of its own. -/
structure CallSetting where
  ssl : OpenSsl
  srtpCtx : SrtpContext
  isClient : Bool
  config : CallMediaConfig
  peerConfig : CallMediaConfig
  /-- The slots of the jitter buffer, `JITTER_BUFF_SIZE`. -/
  jitterBuffSize : ℕ := 2048

/-! ## The threads -/

inductive VideoSender where
  | waiting
  /-- In the loop of `send_encoded_frame`, before chunk `i`. -/
  | sendingChunk (frame : EncodedFrame) (i : ℕ)
  | ended
  deriving DecidableEq, Repr

/-- Where a loop stands that looks at `connected` and then waits for input. -/
inductive LoopPoint where
  | check
  | recv
  | ended
  deriving DecidableEq, Repr

/-- What the socket of the receiving side gives: the `n`-th datagram that was sent, or another. -/
inductive Arrival where
  | sent (n : ℕ)
  | foreign (datagram : List UInt8)
  deriving DecidableEq, Repr

def Arrival.datagram (wire : List (List UInt8)) : Arrival → Option (List UInt8)
  | .sent n => wire[n]?
  | .foreign datagram => some datagram

structure MediaPath where
  connected : Bool := true
  videoSender : VideoSender := .waiting
  videoSeqNum : ℕ := 0
  audioSending : Bool := true
  audioSeqNum : ℕ := 0
  rtp : Pipe RtpPacket := {}
  protectedData : Pipe (List UInt8) := {}
  rtpSender : LoopPoint := .check
  metrics : SenderStats := ⟨0, 0⟩
  wire : List (List UInt8) := []
  peerConnected : Bool := true
  rtpReceiver : LoopPoint := .check
  received : Pipe (List UInt8) := {}
  unprotected : Pipe RtpPacket := {}
  videoRx : Pipe RtpPacket := {}
  audioRx : Pipe RtpPacket := {}
  framePipeline : LoopPoint := .check
  jitterBuffer : JitterBuffer := .new
  /-- The frames the encoders gave, what the socket gave and the frames handed to the decoder. -/
  encoded : List EncodedFrame := []
  recorded : List (BitVec 128 × List UInt8) := []
  arrivals : List Arrival := []
  played : List Delivery := []

def audioPacket (config : CallMediaConfig) (timestamp : BitVec 128) (encodedBytes : List UInt8)
    (sequenceNumber : ℕ) : RtpPacket where
  version := config.rtpVersion
  marker := 1
  totalChunks := 1
  isIFrame := false
  payloadType := config.audioPayloadType
  sequenceNumber := UInt64.ofNat sequenceNumber
  timestamp := timestamp
  ssrc := config.audioSsrc
  payload := encodedBytes

namespace MediaPath
variable (call : CallSetting) (s : MediaPath)

/-! ### The sending side -/

/-- The video thread takes a picture; without a frame from the encoder it ends. -/
def encode (frame : Option EncodedFrame) : MediaPath :=
  match s.videoSender, frame with
  | .waiting, none => { s with videoSender := .ended }
  | .waiting, some frame =>
    if s.connected then { s with videoSender := .sendingChunk frame 0, encoded := s.encoded ++ [frame] }
    else { s with videoSender := .ended }
  | _, _ => s

def sendChunk : MediaPath :=
  match s.videoSender with
  | .sendingChunk frame i =>
    match frame.chunks[i]? with
    | none => { s with videoSender := .waiting }
    | some payload =>
      let packet := framePacket call.config.toMediaConfig frame i payload s.videoSeqNum
      let s := { s with videoSeqNum := saturatingSucc s.videoSeqNum }
      match s.rtp.send packet with
      | none => { s with videoSender := .ended }
      | some rtp => { s with videoSender := .sendingChunk frame (i + 1), rtp := rtp }
  | _ => s

/-- The audio thread takes a frame of the microphone; one that cannot be encoded is passed over. -/
def record (timestamp : BitVec 128) (encodedBytes : Option (List UInt8)) : MediaPath :=
  if s.audioSending then
    if s.connected then
      match encodedBytes with
      | none => s
      | some encodedBytes =>
        let packet := audioPacket call.config timestamp encodedBytes s.audioSeqNum
        let s := { s with audioSeqNum := saturatingSucc s.audioSeqNum }
        match s.rtp.send packet with
        | none => { s with audioSending := false }
        | some rtp => { s with rtp := rtp, recorded := s.recorded ++ [(timestamp, encodedBytes)] }
    else { s with audioSending := false }
  else s

def protection (packet : RtpPacket) : Answer (List UInt8) :=
  match call.srtpCtx.protect call.ssl packet call.isClient with
  | .ok data => .pass data
  | .error _ => .stop

/-- One turn of the thread of `start_protection_layer`. -/
def protect : MediaPath :=
  let senders := decide (s.videoSender ≠ .ended) || s.audioSending
  let relayed := Pipe.relay (protection call) senders s.rtp s.protectedData
  { s with rtp := relayed.1, protectedData := relayed.2 }

def endSender : MediaPath := { s with rtpSender := .ended, protectedData := s.protectedData.close }

def senderCheck : MediaPath :=
  if s.rtpSender = .check then
    if s.connected then { s with rtpSender := .recv } else s.endSender
  else s

/-- `send_packet` on the next datagram; `answered` says whether the socket takes it. -/
def sendPacket (answered : Bool) : MediaPath :=
  if s.rtpSender = .recv then
    match s.protectedData.next with
    | none => if s.rtp.opened then s else s.endSender
    | some protectedPacket =>
      let s := { s with protectedData := s.protectedData.take }
      if !s.connected then s.endSender
      else if answered && decide (protectedPacket.length ≤ maxDatagram) then
        { s with
          wire := s.wire ++ [protectedPacket]
          metrics :=
            { packetsSent := s.metrics.packetsSent + 1
              bytesSent := s.metrics.bytesSent + UInt64.ofNat protectedPacket.length }
          rtpSender := .check }
      else s.endSender
  else s

/-! ### The receiving side -/

def receiverCheck : MediaPath :=
  if s.rtpReceiver = .check then { s with rtpReceiver := if s.peerConnected then .recv else .ended } else s

/-- `receive` reads a datagram into its buffer of 65535 bytes, and the receiver hands it on. -/
def receive (arrival : Arrival) : MediaPath :=
  if s.rtpReceiver = .recv then
    match arrival.datagram s.wire with
    | none => s
    | some datagram =>
      match s.received.send (datagram.take 65535) with
      | none => { s with rtpReceiver := .ended }
      | some received => { s with received := received, rtpReceiver := .check, arrivals := s.arrivals ++ [arrival] }
  else s

/-- `receive` fails: an error of the socket, or a timeout with the flag down. -/
def receiveFails : MediaPath :=
  if s.rtpReceiver = .recv then { s with rtpReceiver := .ended } else s

def unprotection (protectedData : List UInt8) : Answer RtpPacket :=
  if !looksRtp protectedData then .skip
  else
    match call.srtpCtx.unprotect call.ssl protectedData (!call.isClient) with
    | .ok packet => .pass packet
    | .error _ => .stop

/-- One turn of the thread of `start_unprotection_layer`. -/
def unprotect : MediaPath :=
  let relayed := Pipe.relay (unprotection call) (decide (s.rtpReceiver ≠ .ended)) s.received s.unprotected
  { s with received := relayed.1, unprotected := relayed.2 }

/-- One turn of the demuxer. A packet of neither payload type is dropped. -/
def demux : MediaPath :=
  if s.unprotected.opened then
    match s.unprotected.next with
    | none => if s.received.opened then s else { s with unprotected := s.unprotected.close }
    | some packet =>
      let ended := { s with unprotected := s.unprotected.take.close }
      let s := { s with unprotected := s.unprotected.take }
      if !s.peerConnected then ended
      else if packet.payloadType = call.peerConfig.videoPayloadType then
        match s.videoRx.send packet with
        | none => ended
        | some videoRx => { s with videoRx := videoRx }
      else if packet.payloadType = call.peerConfig.audioPayloadType then
        match s.audioRx.send packet with
        | none => ended
        | some audioRx => { s with audioRx := audioRx }
      else s
  else s

/-- The audio playback thread ends. -/
def audioPlaybackEnds : MediaPath := { s with audioRx := s.audioRx.close }

def endPipeline : MediaPath := { s with framePipeline := .ended, videoRx := s.videoRx.close }

def pipelineCheck : MediaPath :=
  if s.framePipeline = .check then
    if s.peerConnected then { s with framePipeline := .recv } else s.endPipeline
  else s

/-- The rest of a turn of `run_frame_pipeline_loop`: the next packet goes into the jitter buffer and
a frame comes out or not. A panic of the buffer ends the thread; `refused` says that a frame was
decoded and nobody takes it. -/
def play (clk : ℕ → ℕ) (refused : Bool) : MediaPath :=
  if s.framePipeline = .recv then
    match s.videoRx.next with
    | none => if s.unprotected.opened then s else s.endPipeline
    | some packet =>
      let s := { s with videoRx := s.videoRx.take }
      match s.jitterBuffer.add call.jitterBuffSize packet with
      | .error _ => s.endPipeline
      | .ok added =>
        match added.pop call.jitterBuffSize clk with
        | .error _ => s.endPipeline
        | .ok (chunks, jitterBuffer) =>
          let s := { s with jitterBuffer := jitterBuffer, played := s.played ++ chunks.toList, framePipeline := .check }
          if chunks.isSome && refused then s.endPipeline else s
  else s

end MediaPath

/-! ## The path as a machine -/

inductive PathMove where
  | encode (frame : Option EncodedFrame)
  | sendChunk
  | record (timestamp : BitVec 128) (encodedBytes : Option (List UInt8))
  | microphoneEnds
  | protect
  | senderCheck
  | sendPacket (answered : Bool)
  /-- One of the other threads of the side takes the flag down. -/
  | disconnect
  | receiverCheck
  | receive (arrival : Arrival)
  | receiveFails
  | unprotect
  | demux
  | audioPlaybackEnds
  | pipelineCheck
  | play (clk : ℕ → ℕ) (refused : Bool)
  | peerDisconnect

def MediaPath.step (call : CallSetting) (s : MediaPath) : PathMove → MediaPath
  | .encode frame => s.encode frame
  | .sendChunk => s.sendChunk call
  | .record timestamp encodedBytes => s.record call timestamp encodedBytes
  | .microphoneEnds => { s with audioSending := false }
  | .protect => s.protect call
  | .senderCheck => s.senderCheck
  | .sendPacket answered => s.sendPacket answered
  | .disconnect => { s with connected := false }
  | .receiverCheck => s.receiverCheck
  | .receive arrival => s.receive arrival
  | .receiveFails => s.receiveFails
  | .unprotect => s.unprotect call
  | .demux => s.demux call
  | .audioPlaybackEnds => s.audioPlaybackEnds
  | .pipelineCheck => s.pipelineCheck
  | .play clk refused => s.play call clk refused
  | .peerDisconnect => { s with peerConnected := false }

def mediaMachine (call : CallSetting) : Machine MediaPath PathMove Unit where
  step s move := some (s.step call move, ())

end RoomRtc.Media
