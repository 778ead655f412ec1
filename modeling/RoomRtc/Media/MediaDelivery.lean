import RoomRtc.Media.MediaPath
import RoomRtc.Srtp.Inverse
import RoomRtc.Srtp.Keystream

/-! What gets through. Each thread of the path hands on the answers to a prefix of what it was
given, the channel behind the encoders holds a merge of the two packet streams, and the socket of
the peer gives datagrams that were sent or that are foreign. -/
namespace RoomRtc.Media
open Transport Srtp Jitter
set_option autoImplicit false

/-! ## The streams of the senders -/

/-- The packets of the audio thread. -/
def audioStream (config : CallMediaConfig) (recorded : List (BitVec 128 × List UInt8)) : List RtpPacket :=
  recorded.mapIdx fun k r => audioPacket config r.1 r.2 (satSeq k)

theorem audioStream_concat (config : CallMediaConfig) (recorded : List (BitVec 128 × List UInt8))
    (r : BitVec 128 × List UInt8) :
    audioStream config (recorded ++ [r]) =
      audioStream config recorded ++ [audioPacket config r.1 r.2 (satSeq recorded.length)] := by
  simp [audioStream]

theorem packetStream_concat (config : MediaConfig) (frames : List EncodedFrame) (f : EncodedFrame) :
    packetStream config (frames ++ [f]) 0 =
      packetStream config frames 0 ++ framePackets config f (startOf frames frames.length) := by
  have h := packetStream_append config frames [f] 0
  rw [packetStream_cons, show satSeq 0 = 0 from rfl, Nat.zero_add, packetStream, List.append_nil] at h
  exact h

theorem startOf_concat (frames : List EncodedFrame) (f : EncodedFrame) :
    startOf (frames ++ [f]) (frames ++ [f]).length = startOf frames frames.length + f.chunks.length := by
  rw [List.length_append, startOf_append, List.length_singleton, startOf_cons_succ, startOf_zero, Nat.add_zero]

/-- Where the video thread stands, by the frames it took, its counter and the packets it sent. -/
def VideoSent (config : MediaConfig) (frames : List EncodedFrame) (seqNum : ℕ) (packets : List RtpPacket) :
    VideoSender → Prop
  | .waiting => packets = packetStream config frames 0 ∧ seqNum = satSeq (startOf frames frames.length)
  | .sendingChunk frame i => ∃ before, frames = before ++ [frame] ∧ i ≤ frame.chunks.length ∧
      packets = packetStream config before 0 ++ (framePackets config frame (startOf before before.length)).take i ∧
      seqNum = satSeq (startOf before before.length + i)
  | .ended => packets <+: packetStream config frames 0

theorem VideoSent.begins {config : MediaConfig} {frames : List EncodedFrame} {seqNum : ℕ} {packets : List RtpPacket}
    {sender : VideoSender} (h : VideoSent config frames seqNum packets sender) :
    packets <+: packetStream config frames 0 := by
  cases sender with
  | waiting => rw [h.1]
  | sendingChunk frame i =>
    obtain ⟨before, rfl, _, rfl, _⟩ := h
    rw [packetStream_concat]
    exact (List.prefix_append_right_inj _).mpr <| List.take_prefix _ _
  | ended => exact h

/-- The next chunk goes out. -/
theorem VideoSent.chunk {config : MediaConfig} {frames : List EncodedFrame} {seqNum i : ℕ}
    {packets : List RtpPacket} {frame : EncodedFrame} {payload : List UInt8}
    (h : VideoSent config frames seqNum packets (.sendingChunk frame i)) (hi : frame.chunks[i]? = some payload) :
    VideoSent config frames (saturatingSucc seqNum) (packets ++ [framePacket config frame i payload seqNum])
      (.sendingChunk frame (i + 1)) := by
  obtain ⟨before, hframes, _, rfl, rfl⟩ := h
  obtain ⟨hlt, hget⟩ := List.getElem?_eq_some_iff.mp hi
  refine ⟨before, hframes, hlt, ?_, ?_⟩
  · have hlen : i < (framePackets config frame (startOf before before.length)).length := by
      simpa [framePackets] using hlt
    have hchunk : (framePackets config frame (startOf before before.length))[i] =
        framePacket config frame i payload (satSeq (startOf before before.length + i)) := by
      rw [← hget]
      simp [framePackets, chunkPacket, hlt]
    rw [List.take_succ_eq_append_getElem hlen, hchunk, List.append_assoc]
  · rw [saturatingSucc_satSeq, Nat.add_assoc]

/-- The last chunk of the frame is out. -/
theorem VideoSent.finish {config : MediaConfig} {frames : List EncodedFrame} {seqNum i : ℕ}
    {packets : List RtpPacket} {frame : EncodedFrame}
    (h : VideoSent config frames seqNum packets (.sendingChunk frame i)) (hi : frame.chunks[i]? = none) :
    VideoSent config frames seqNum packets .waiting := by
  obtain ⟨before, rfl, hle, rfl, rfl⟩ := h
  have hall : i = frame.chunks.length := Nat.le_antisymm hle (List.getElem?_eq_none_iff.mp hi)
  subst hall
  refine ⟨?_, ?_⟩
  · rw [packetStream_concat, List.take_of_length_le (by simp [framePackets])]
  · rw [startOf_concat]

/-! ## The invariant -/

/-- What the demuxer takes for video, and for audio. -/
def isVideo (config : CallMediaConfig) (packet : RtpPacket) : Bool :=
  decide (packet.payloadType = config.videoPayloadType)

def isAudio (config : CallMediaConfig) (packet : RtpPacket) : Bool :=
  !isVideo config packet && decide (packet.payloadType = config.audioPayloadType)

/-- Every thread against the channels before and behind it. -/
structure Threaded (call : CallSetting) (s : MediaPath) : Prop where
  produced : ∃ video, VideoSent call.config.toMediaConfig s.encoded s.videoSeqNum video s.videoSender ∧
    Merge video (audioStream call.config s.recorded) s.rtp.sent
  audioSeqNum : s.audioSending = true → s.audioSeqNum = satSeq s.recorded.length
  protection : s.rtp.Carries (MediaPath.protection call) s.protectedData.sent
  sender : s.protectedData.Carries Answer.pass s.wire
  senderLives : s.rtpSender ≠ .ended → s.protectedData.opened = true
  packetsSent : s.metrics.packetsSent = UInt32.ofNat s.wire.length
  bytesSent : s.metrics.bytesSent = UInt64.ofNat (s.wire.map List.length).sum
  fits : ∀ datagram ∈ s.wire, datagram.length ≤ maxDatagram
  arrived : s.received.sent.map some = s.arrivals.map fun a => (a.datagram s.wire).map (List.take 65535)
  unprotection : s.received.Carries (MediaPath.unprotection call) s.unprotected.sent
  demuxed : ∃ packets, s.unprotected.Carries Answer.pass packets ∧
    s.videoRx.sent = packets.filter (isVideo call.peerConfig) ∧
    s.audioRx.sent = packets.filter (isAudio call.peerConfig)

namespace Threaded
variable {call : CallSetting} {s : MediaPath}

theorem new (call : CallSetting) : Threaded call {} where
  produced := ⟨[], ⟨rfl, by simp [satSeq]⟩, .nil⟩
  audioSeqNum := fun _ => rfl
  protection := .new
  sender := .new
  senderLives := fun _ => rfl
  packetsSent := rfl
  bytesSent := rfl
  fits := by simp
  arrived := rfl
  unprotection := .new
  demuxed := ⟨[], .new, rfl, rfl⟩

/-! ### The sending side -/

theorem encode (h : Threaded call s) (frame : Option EncodedFrame) : Threaded call (s.encode frame) := by
  obtain ⟨video, hv, hmerge⟩ := h.produced
  unfold MediaPath.encode
  split
  · exact { h with produced := ⟨video, hv.begins, hmerge⟩ }
  · next frame hs =>
    rw [hs] at hv
    split
    · refine { h with produced := ⟨video, ⟨s.encoded, rfl, Nat.zero_le _, ?_, ?_⟩, hmerge⟩ }
      · rw [hv.1, List.take_zero, List.append_nil]
      · rw [hv.2, Nat.add_zero]
    · exact { h with produced := ⟨video, hv.begins, hmerge⟩ }
  · exact h

theorem sendChunk (h : Threaded call s) : Threaded call (s.sendChunk call) := by
  obtain ⟨video, hv, hmerge⟩ := h.produced
  unfold MediaPath.sendChunk
  split
  · next frame i hs =>
    rw [hs] at hv
    split
    · next hi => exact { h with produced := ⟨video, hv.finish hi, hmerge⟩ }
    · next payload hi =>
      dsimp only
      split
      · exact { h with produced := ⟨video, hv.begins, hmerge⟩ }
      · next rtp hr =>
        refine { h with produced := ⟨_, hv.chunk hi, ?_⟩, protection := h.protection.send hr }
        rw [Pipe.send_sent hr]
        exact hmerge.left _
  · exact h

theorem record (h : Threaded call s) (timestamp : BitVec 128) (encodedBytes : Option (List UInt8)) :
    Threaded call (s.record call timestamp encodedBytes) := by
  obtain ⟨video, hv, hmerge⟩ := h.produced
  unfold MediaPath.record
  split
  · next hs =>
    split
    · split
      · exact h
      · next encodedBytes =>
        have hseq := h.audioSeqNum hs
        dsimp only
        split
        · exact { h with audioSeqNum := fun hf => (Bool.false_ne_true hf).elim }
        · next rtp hr =>
          refine { h with produced := ⟨video, hv, ?_⟩, audioSeqNum := ?_, protection := h.protection.send hr }
          · rw [Pipe.send_sent hr, audioStream_concat, hseq]
            exact hmerge.right _
          · intro _
            rw [hseq, saturatingSucc_satSeq, List.length_append, List.length_singleton]
    · exact { h with audioSeqNum := fun hf => (Bool.false_ne_true hf).elim }
  · exact h

theorem protect (h : Threaded call s) : Threaded call (s.protect call) := by
  obtain ⟨video, hv, hmerge⟩ := h.produced
  unfold MediaPath.protect
  dsimp only
  refine
    { h with
      produced := ⟨video, hv, ?_⟩
      protection := h.protection.relay _
      sender := h.sender.relay_next _ _ _
      senderLives := ?_ }
  · rw [Pipe.relay_sent]
    exact hmerge
  · rw [Pipe.relay_opened]
    exact h.senderLives

theorem endSender (h : Threaded call s) : Threaded call s.endSender :=
  { h with sender := h.sender.close, senderLives := fun hl => (hl rfl).elim }

theorem senderCheck (h : Threaded call s) : Threaded call s.senderCheck := by
  unfold MediaPath.senderCheck
  split
  · next hs =>
    split
    · exact { h with senderLives := fun _ => h.senderLives (by simp [hs]) }
    · exact h.endSender
  · exact h

/-- What the socket gave as sent was sent. -/
theorem arrival_sent (h : Threaded call s) {n : ℕ} (hn : Arrival.sent n ∈ s.arrivals) : n < s.wire.length := by
  have hmem := List.mem_map_of_mem (f := fun a => (a.datagram s.wire).map (List.take 65535)) hn
  rw [← h.arrived] at hmem
  obtain ⟨d, _, hd⟩ := List.mem_map.mp hmem
  by_contra hge
  rw [Arrival.datagram, List.getElem?_eq_none (by omega)] at hd
  cases hd

/-- What the socket gave before is not touched by what is sent later. -/
theorem arrived_send (h : Threaded call s) (datagram : List UInt8) :
    s.received.sent.map some =
      s.arrivals.map fun a => (a.datagram (s.wire ++ [datagram])).map (List.take 65535) := by
  rw [h.arrived]
  apply List.map_congr_left
  intro a ha
  cases a with
  | foreign d => rfl
  | sent n =>
    have hlt := h.arrival_sent ha
    rw [Arrival.datagram, Arrival.datagram, List.getElem?_append_left hlt]

theorem sendPacket (h : Threaded call s) (answered : Bool) : Threaded call (s.sendPacket answered) := by
  unfold MediaPath.sendPacket
  split
  · next hrecv =>
    have ho := h.senderLives (by simp [hrecv])
    split
    · split
      · exact h
      · exact h.endSender
    · next datagram hn =>
      have hdrop : Threaded call (MediaPath.endSender { s with protectedData := s.protectedData.take }) :=
        { h with sender := h.sender.drop hn, senderLives := fun hl => (hl rfl).elim }
      dsimp only
      split
      · exact hdrop
      · split
        · next hfits =>
          simp only [Bool.and_eq_true, decide_eq_true_eq] at hfits
          refine
            { h with
              sender := h.sender.pass ho hn rfl
              senderLives := fun _ => ho
              packetsSent := ?_
              bytesSent := ?_
              fits := ?_
              arrived := h.arrived_send datagram }
          · rw [h.packetsSent, List.length_append, List.length_singleton, UInt32.ofNat_add]
            rfl
          · rw [h.bytesSent, List.map_append, List.sum_append, UInt64.ofNat_add]
            simp
          · intro d hd
            rcases List.mem_append.mp hd with hd | hd
            · exact h.fits d hd
            · rw [List.mem_singleton.mp hd]
              exact hfits.2
        · exact hdrop
  · exact h

/-! ### The receiving side -/

theorem receiverCheck (h : Threaded call s) : Threaded call s.receiverCheck := by
  unfold MediaPath.receiverCheck
  split
  · exact { h with }
  · exact h

theorem receive (h : Threaded call s) (arrival : Arrival) : Threaded call (s.receive arrival) := by
  unfold MediaPath.receive
  split
  · split
    · exact h
    · next datagram hd =>
      split
      · exact { h with }
      · next received hr =>
        refine { h with arrived := ?_, unprotection := h.unprotection.send hr }
        rw [Pipe.send_sent hr, List.map_append, List.map_append, h.arrived, List.map_singleton, List.map_singleton,
          hd, Option.map_some]
  · exact h

theorem receiveFails (h : Threaded call s) : Threaded call s.receiveFails := by
  unfold MediaPath.receiveFails
  split
  · exact { h with }
  · exact h

theorem unprotect (h : Threaded call s) : Threaded call (s.unprotect call) := by
  obtain ⟨packets, hd, hv, ha⟩ := h.demuxed
  unfold MediaPath.unprotect
  dsimp only
  refine { h with arrived := ?_, unprotection := h.unprotection.relay _, demuxed :=
    ⟨packets, hd.relay_next _ _ _, hv, ha⟩ }
  rw [Pipe.relay_sent]
  exact h.arrived

theorem demux (h : Threaded call s) : Threaded call (s.demux call) := by
  obtain ⟨packets, hd, hv, ha⟩ := h.demuxed
  unfold MediaPath.demux
  split
  · next ho =>
    split
    · split
      · exact h
      · exact { h with demuxed := ⟨packets, hd.close, hv, ha⟩ }
    · next packet hn =>
      have hended : Threaded call { s with unprotected := s.unprotected.take.close } :=
        { h with demuxed := ⟨packets, hd.drop hn, hv, ha⟩ }
      have hpass := hd.pass ho hn rfl
      dsimp only
      split
      · exact hended
      · split
        · next hpt =>
          have hvideo : isVideo call.peerConfig packet = true := decide_eq_true hpt
          split
          · exact hended
          · next videoRx hs =>
            refine { h with demuxed := ⟨_, hpass, ?_, ?_⟩ }
            · rw [Pipe.send_sent hs, hv, List.filter_append]
              simp [hvideo]
            · rw [ha, List.filter_append]
              simp [isAudio, hvideo]
        · next hpt =>
          have hvideo : isVideo call.peerConfig packet = false := decide_eq_false hpt
          split
          · next haudio =>
            split
            · exact hended
            · next audioRx hs =>
              refine { h with demuxed := ⟨_, hpass, ?_, ?_⟩ }
              · rw [hv, List.filter_append]
                simp [hvideo]
              · rw [Pipe.send_sent hs, ha, List.filter_append]
                simp [isAudio, hvideo, haudio]
          · next haudio =>
            refine { h with demuxed := ⟨_, hpass, ?_, ?_⟩ }
            · rw [hv, List.filter_append]
              simp [hvideo]
            · rw [ha, List.filter_append]
              simp [isAudio, haudio]
  · exact h

theorem endPipeline (h : Threaded call s) : Threaded call s.endPipeline :=
  { h with }

theorem pipelineCheck (h : Threaded call s) : Threaded call s.pipelineCheck := by
  unfold MediaPath.pipelineCheck
  split
  · split
    · exact { h with }
    · exact h.endPipeline
  · exact h

theorem play (h : Threaded call s) (clk : ℕ → ℕ) (refused : Bool) : Threaded call (s.play call clk refused) := by
  unfold MediaPath.play
  split
  · split
    · split
      · exact h
      · exact h.endPipeline
    · dsimp only
      split
      · exact { h with }
      · split
        · exact { h with }
        · split
          · exact { h with }
          · exact { h with }
  · exact h

theorem step (h : Threaded call s) (move : PathMove) : Threaded call (s.step call move) := by
  cases move with
  | encode frame => exact h.encode frame
  | sendChunk => exact h.sendChunk
  | record timestamp encodedBytes => exact h.record timestamp encodedBytes
  | microphoneEnds => exact { h with audioSeqNum := fun hf => (Bool.false_ne_true hf).elim }
  | protect => exact h.protect
  | senderCheck => exact h.senderCheck
  | sendPacket answered => exact h.sendPacket answered
  | disconnect => exact { h with }
  | receiverCheck => exact h.receiverCheck
  | receive arrival => exact h.receive arrival
  | receiveFails => exact h.receiveFails
  | unprotect => exact h.unprotect
  | demux => exact h.demux
  | audioPlaybackEnds => exact { h with }
  | pipelineCheck => exact h.pipelineCheck
  | play clk refused => exact h.play clk refused
  | peerDisconnect => exact { h with }

theorem run {moves : List PathMove} {os : List Unit} (hrun : (mediaMachine call).run {} moves = some (s, os)) :
    Threaded call s := by
  refine (mediaMachine call).run_invariant (G := fun _ _ => True) (Threaded call) ?_ (Threaded.new call)
    ((mediaMachine call).guarded_of_forall fun _ _ _ => trivial) hrun
  intro s move s' o h _ hstep
  cases hstep
  exact h.step move

/-! ## On the wire -/

theorem protection_pass {packet : RtpPacket} {data : List UInt8}
    (h : MediaPath.protection call packet = .pass data) :
    call.srtpCtx.protect call.ssl packet call.isClient = .ok data := by
  unfold MediaPath.protection at h
  split at h
  · next hp =>
    cases h
    exact hp
  · cases h

theorem protection_ne_skip (call : CallSetting) (packet : RtpPacket) : MediaPath.protection call packet ≠ .skip := by
  unfold MediaPath.protection
  split <;> simp

/-- The datagrams on the wire are the first packets, protected. -/
theorem wire_protected (h : Threaded call s) : s.wire.length ≤ s.rtp.sent.length ∧
    s.wire.map .ok = (s.rtp.sent.take s.wire.length).map (call.srtpCtx.protect call.ssl · call.isClient) := by
  obtain ⟨hle, hprotect, _⟩ := h.protection.map_of_no_skip (protection_ne_skip call)
  obtain ⟨hle', hsend, _⟩ := h.sender.map_of_no_skip (by simp)
  have hpass : s.wire.map Answer.pass = (s.rtp.sent.take s.wire.length).map (MediaPath.protection call) := by
    rw [hsend, List.map_take, hprotect, ← List.map_take, List.take_take, Nat.min_eq_left hle']
  refine ⟨hle'.trans hle, ?_⟩
  have hlen := congrArg List.length hpass
  rw [List.length_map, List.length_map] at hlen
  apply List.ext_getElem
  · simp only [List.length_map]
    exact hlen
  · intro n h₁ h₂
    rw [List.length_map] at h₁ h₂
    have hn := List.getElem_of_eq hpass (i := n) (by rwa [List.length_map])
    rw [List.getElem_map, List.getElem_map] at hn
    rw [List.getElem_map, List.getElem_map, protection_pass hn.symm]

theorem wire_get (h : Threaded call s) {n : ℕ} {datagram : List UInt8} (hn : s.wire[n]? = some datagram) :
    ∃ packet, s.rtp.sent[n]? = some packet ∧ call.srtpCtx.protect call.ssl packet call.isClient = .ok datagram := by
  obtain ⟨hlt, hget⟩ := List.getElem?_eq_some_iff.mp hn
  obtain ⟨hle, hmap⟩ := h.wire_protected
  have hlt' : n < s.rtp.sent.length := by omega
  refine ⟨s.rtp.sent[n], List.getElem?_eq_getElem hlt', ?_⟩
  have hget' := List.getElem_of_eq hmap (i := n) (by rwa [List.length_map])
  rw [List.getElem_map, List.getElem_map, List.getElem_take, hget] at hget'
  exact hget'.symm

end Threaded

/-- **What the sender reports count.** The datagrams on the wire are the first packets of the call,
protected, one for each and in order, and the statistics are their number and size, as far as the
counters go. -/
theorem wire_counted (call : CallSetting) {moves : List PathMove} {s : MediaPath} {os : List Unit}
    (hrun : (mediaMachine call).run {} moves = some (s, os)) :
    s.wire.length ≤ s.rtp.sent.length ∧
    s.wire.map .ok = (s.rtp.sent.take s.wire.length).map (call.srtpCtx.protect call.ssl · call.isClient) ∧
    s.metrics.packetsSent.toNat = s.wire.length % 2 ^ 32 ∧
    s.metrics.bytesSent.toNat = (s.wire.map List.length).sum % 2 ^ 64 := by
  have h := Threaded.run hrun
  obtain ⟨hle, hmap⟩ := h.wire_protected
  refine ⟨hle, hmap, ?_, ?_⟩
  · rw [h.packetsSent, UInt32.toNat_ofNat']
  · rw [h.bytesSent, UInt64.toNat_ofNat']

/-! ## At the other side -/

/-- The packet in what the socket gives: the one that was sent, or what a foreign datagram passes for. -/
def Arrival.packet (call : CallSetting) (sent : List RtpPacket) : Arrival → Option RtpPacket
  | .sent n => sent[n]?
  | .foreign datagram => accepted call.ssl call.srtpCtx (!call.isClient) (datagram.take 65535)

section Delivery
variable {call : CallSetting} {s : MediaPath}

theorem passed_unprotection (call : CallSetting) (datagram : List UInt8) :
    (MediaPath.unprotection call datagram).passed = accepted call.ssl call.srtpCtx (!call.isClient) datagram := by
  unfold MediaPath.unprotection accepted
  cases looksRtp datagram with
  | false => rfl
  | true =>
    simp only [Bool.not_true, Bool.false_eq_true, if_false, if_true]
    cases call.srtpCtx.unprotect call.ssl datagram (!call.isClient) <;> rfl

theorem sized_of_new {keyingMaterial : List UInt8} {ctx : SrtpContext}
    (h : SrtpContext.new keyingMaterial = .ok ctx) : ctx.Sized := by
  have hlen : 60 ≤ keyingMaterial.length := by
    by_contra hlt
    rw [SrtpContext.new, if_pos (by omega)] at h
    cases h
  obtain ⟨ctx', hnew, hsized⟩ := SrtpContext.new_sized hlen
  cases h.symm.trans hnew
  exact hsized

/-- A packet of version 2 is accepted by the other side. -/
theorem accepted_protected (hssl : call.ssl.Sound) (hctx : call.srtpCtx.Sized) {packet : RtpPacket}
    (hversion : packet.version = 2) {datagram : List UInt8}
    (h : call.srtpCtx.protect call.ssl packet call.isClient = .ok datagram) :
    accepted call.ssl call.srtpCtx (!call.isClient) datagram = some packet := by
  have hle : packet.version ≤ 3 := by
    rw [hversion]
    decide
  obtain ⟨encrypted, tag, hprotect, hunprotect⟩ := SrtpContext.unprotect_protect hssl hctx hle call.isClient
  cases h.symm.trans hprotect
  have hlooks : looksRtp (packet.header ++ encrypted ++ tag) = true := by
    rw [List.append_assoc]
    exact (SrtpContext.looksRtp_header hle _).mpr hversion
  rw [accepted, if_pos hlooks, hunprotect]
  rfl

theorem packetStream_version {config : MediaConfig} {frames : List EncodedFrame} {packet : RtpPacket}
    (h : packet ∈ packetStream config frames 0) : packet.version = config.rtpVersion := by
  obtain ⟨j, i, ⟨f, c, _, _, rfl⟩⟩ := mem_packetStream.mp h
  rfl

theorem audioStream_get {config : CallMediaConfig} {recorded : List (BitVec 128 × List UInt8)} {packet : RtpPacket}
    (h : packet ∈ audioStream config recorded) :
    ∃ k r, recorded[k]? = some r ∧ packet = audioPacket config r.1 r.2 (satSeq k) := by
  obtain ⟨k, hk, rfl⟩ := List.mem_mapIdx.mp h
  exact ⟨k, recorded[k], List.getElem?_eq_getElem hk, rfl⟩

namespace Threaded

theorem sent_version (h : Threaded call s) {packet : RtpPacket} (hp : packet ∈ s.rtp.sent) :
    packet.version = call.config.rtpVersion := by
  obtain ⟨video, hv, hmerge⟩ := h.produced
  rcases hmerge.mem.mp hp with hp | hp
  · exact packetStream_version (hv.begins.subset hp)
  · obtain ⟨k, r, _, rfl⟩ := audioStream_get hp
    rfl

/-- What the unprotection layer makes of an arrival is the packet in it. -/
theorem arrival_packet (h : Threaded call s) (hssl : call.ssl.Sound) (hctx : call.srtpCtx.Sized)
    (hversion : call.config.rtpVersion = 2) {a : Arrival} (ha : a ∈ s.arrivals) :
    ((a.datagram s.wire).map (List.take 65535)).bind
        (fun d => (MediaPath.unprotection call d).passed) = a.packet call s.rtp.sent := by
  cases a with
  | foreign d =>
    rw [Arrival.datagram, Option.map_some, Option.bind_some, passed_unprotection]
    rfl
  | sent n =>
    have hlt := h.arrival_sent ha
    obtain ⟨packet, hpacket, hprotect⟩ := h.wire_get (List.getElem?_eq_getElem hlt)
    have hfits := h.fits s.wire[n] (List.getElem_mem hlt)
    have htake : s.wire[n].take 65535 = s.wire[n] := List.take_of_length_le (by unfold maxDatagram at hfits; omega)
    have hv : packet.version = 2 := (h.sent_version (List.mem_of_getElem? hpacket)).trans hversion
    rw [Arrival.datagram, List.getElem?_eq_getElem hlt, Option.map_some, Option.bind_some, htake,
      passed_unprotection, accepted_protected hssl hctx hv hprotect, Arrival.packet, hpacket]

/-- The packets behind the unprotection layer are those of the first arrivals. -/
theorem received_packets (h : Threaded call s) (hssl : call.ssl.Sound) (hctx : call.srtpCtx.Sized)
    (hversion : call.config.rtpVersion = 2) (n : ℕ) :
    (s.received.sent.take n).filterMap (fun d => (MediaPath.unprotection call d).passed) =
      (s.arrivals.take n).filterMap (Arrival.packet call s.rtp.sent) := by
  have hbind : ∀ l : List (List UInt8), l.filterMap (fun d => (MediaPath.unprotection call d).passed) =
      (l.map some).filterMap fun o => o.bind fun d => (MediaPath.unprotection call d).passed := by
    intro l
    rw [List.filterMap_map]
    rfl
  rw [hbind, List.map_take, h.arrived, ← List.map_take, List.filterMap_map]
  apply List.filterMap_congr
  intro a ha
  exact h.arrival_packet hssl hctx hversion (List.mem_of_mem_take ha)

theorem unprotection_refused {datagram : List UInt8}
    (h : Refused call.ssl call.srtpCtx (!call.isClient) datagram) : MediaPath.unprotection call datagram = .stop := by
  obtain ⟨hlooks, hnone⟩ := h
  rw [accepted, if_pos hlooks] at hnone
  rw [MediaPath.unprotection, hlooks]
  cases hu : call.srtpCtx.unprotect call.ssl datagram (!call.isClient) with
  | error e => rfl
  | ok packet =>
    rw [hu] at hnone
    cases hnone

/-- The thread of the path is the unprotection layer on the first datagrams. -/
theorem unprotected_layer (h : Threaded call s) : ∃ n ≤ s.received.sent.length, s.unprotected.sent =
    startUnprotectionLayer call.ssl call.srtpCtx (!call.isClient) (fun _ => true) 0 (s.received.sent.take n) := by
  obtain ⟨n, hn, ht, _, hstop, hout⟩ := h.unprotection
  refine ⟨n, by omega, ?_⟩
  rw [hout, (layer_eq_iff (fun _ => true) 0 _).mpr]
  · exact List.filterMap_congr fun d _ => passed_unprotection call d
  · intro before good after hsplit _
    refine ⟨fun d hd hrefused => hstop d ?_ (unprotection_refused hrefused), rfl⟩
    rw [hsplit]
    exact List.mem_append_left _ hd

/-- The channels behind the demuxer. -/
theorem delivered (h : Threaded call s) (hssl : call.ssl.Sound) (hctx : call.srtpCtx.Sized)
    (hversion : call.config.rtpVersion = 2) :
    ∃ n ≤ s.arrivals.length,
      s.videoRx.sent =
        ((s.arrivals.take n).filterMap (Arrival.packet call s.rtp.sent)).filter (isVideo call.peerConfig) ∧
      s.audioRx.sent =
        ((s.arrivals.take n).filterMap (Arrival.packet call s.rtp.sent)).filter (isAudio call.peerConfig) ∧
      (s.received.Drained → s.unprotected.Drained → n = s.arrivals.length) := by
  obtain ⟨packets, hd, hv, ha⟩ := h.demuxed
  obtain ⟨n, hn, hpackets, hall⟩ := h.unprotection.comp hd
  have hcount : s.received.sent.length = s.arrivals.length := by
    simpa using congrArg List.length h.arrived
  have hpass : packets = (s.arrivals.take n).filterMap (Arrival.packet call s.rtp.sent) := by
    rw [hpackets, ← h.received_packets hssl hctx hversion]
    simp [Answer.passed]
  refine ⟨n, by omega, ?_, ?_, ?_⟩
  · rw [hv, hpass]
  · rw [ha, hpass]
  · intro hr hu
    rw [hall hr hu, hcount]

end Threaded
end Delivery

/-- **What arrives is what was sent.** However the threads are interleaved and whatever the network
does, the video pipeline and the audio pipeline of the peer are given exactly the packets that the
first arrivals stand for, unchanged, each in the pipeline of its payload type and in the order of
arrival; and all of them once the receiving threads have caught up. What was sent is a merge of the
chunks of the encoded frames, in order and up to some chunk, and of the encoded sound, and what is
behind the unprotection is what its layer makes of the first datagrams. -/
theorem arrivals_delivered (call : CallSetting) (hssl : call.ssl.Sound) {keyingMaterial : List UInt8}
    (hctx : SrtpContext.new keyingMaterial = .ok call.srtpCtx)
    (hversion : call.config.rtpVersion = 2) {moves : List PathMove} {s : MediaPath} {os : List Unit}
    (hrun : (mediaMachine call).run {} moves = some (s, os)) :
    (∃ n ≤ s.arrivals.length,
      s.videoRx.sent =
        ((s.arrivals.take n).filterMap (Arrival.packet call s.rtp.sent)).filter (isVideo call.peerConfig) ∧
      s.audioRx.sent =
        ((s.arrivals.take n).filterMap (Arrival.packet call s.rtp.sent)).filter (isAudio call.peerConfig) ∧
      (s.received.Drained → s.unprotected.Drained → n = s.arrivals.length)) ∧
    (∃ video, video <+: packetStream call.config.toMediaConfig s.encoded 0 ∧
      Merge video (audioStream call.config s.recorded) s.rtp.sent) ∧
    ∃ n ≤ s.received.sent.length, s.unprotected.sent =
      startUnprotectionLayer call.ssl call.srtpCtx (!call.isClient) (fun _ => true) 0 (s.received.sent.take n) := by
  have h := Threaded.run hrun
  obtain ⟨video, hv, hmerge⟩ := h.produced
  exact ⟨h.delivered hssl (sized_of_new hctx) hversion, ⟨video, hv.begins, hmerge⟩, h.unprotected_layer⟩

/-! ### A picture and a sound -/

/-- The configuration file of the repository, keys of zeros and a small buffer. -/
def zeroCall : CallSetting where
  ssl := SrtpContext.zeroBlockSsl
  srtpCtx := zeroKeys
  isClient := true
  config := { rtpVersion := 2, videoPayloadType := 96, frameSsrc := 42, audioPayloadType := 111, audioSsrc := 43 }
  peerConfig := { rtpVersion := 2, videoPayloadType := 96, frameSsrc := 42, audioPayloadType := 111, audioSsrc := 43 }
  jitterBuffSize := 256

theorem zeroCall_keys : SrtpContext.new (List.replicate 60 0) = .ok zeroCall.srtpCtx := by decide +kernel

/-- A frame of one chunk and a frame of sound go out. -/
def pictureAndSound : List PathMove :=
  [.encode (some ⟨[[1, 2, 3, 4]], 5, true⟩), .sendChunk, .record 6 (some [9]), .sendChunk, .protect, .protect,
    .senderCheck, .sendPacket true, .senderCheck, .sendPacket true]

theorem picture_and_sound_counted : ∃ s os, (mediaMachine zeroCall).run {} pictureAndSound = some (s, os) ∧
    s.wire.length = 2 ∧ s.metrics.packetsSent.toNat = 2 := by
  have hrun : ((mediaMachine zeroCall).run {} pictureAndSound).map (fun r => r.1.wire.length) = some 2 := by
    decide +kernel
  obtain ⟨⟨s, os⟩, hr, hwire⟩ := Option.map_eq_some_iff.mp hrun
  obtain ⟨_, _, hpackets, _⟩ := wire_counted zeroCall hr
  refine ⟨s, os, hr, hwire, ?_⟩
  rw [hpackets, hwire]
  rfl

/-- The sound comes first, then the picture, then the sound again. -/
theorem overtaken_and_repeated : ∃ s os,
    (mediaMachine zeroCall).run {} (pictureAndSound ++
      [.receiverCheck, .receive (.sent 1), .receiverCheck, .receive (.sent 0), .receiverCheck, .receive (.sent 1),
        .unprotect, .unprotect, .unprotect, .demux, .demux, .demux]) = some (s, os) ∧
      s.videoRx.sent = [framePacket zeroCall.config.toMediaConfig ⟨[[1, 2, 3, 4]], 5, true⟩ 0 [1, 2, 3, 4] 0] ∧
      s.audioRx.sent = List.replicate 2 (audioPacket zeroCall.config 6 [9] 0) := by
  have hrun : ((mediaMachine zeroCall).run {} (pictureAndSound ++
      [.receiverCheck, .receive (.sent 1), .receiverCheck, .receive (.sent 0), .receiverCheck, .receive (.sent 1),
        .unprotect, .unprotect, .unprotect, .demux, .demux, .demux])).map
      (fun r => (r.1.arrivals, r.1.rtp.sent, decide r.1.received.Drained, decide r.1.unprotected.Drained)) =
        some ([.sent 1, .sent 0, .sent 1],
          [framePacket zeroCall.config.toMediaConfig ⟨[[1, 2, 3, 4]], 5, true⟩ 0 [1, 2, 3, 4] 0,
            audioPacket zeroCall.config 6 [9] 0], true, true) := by
    decide +kernel
  obtain ⟨⟨s, os⟩, hr, hfacts⟩ := Option.map_eq_some_iff.mp hrun
  simp only [Prod.mk.injEq, decide_eq_true_eq] at hfacts
  obtain ⟨harrivals, hsent, hreceived, hunprotected⟩ := hfacts
  obtain ⟨⟨n, _, hvideo, haudio, hall⟩, _⟩ :=
    arrivals_delivered zeroCall SrtpContext.zeroBlockSsl_sound zeroCall_keys rfl hr
  rw [hall hreceived hunprotected, List.take_length, harrivals, hsent] at hvideo haudio
  refine ⟨s, os, hr, ?_, ?_⟩
  · rw [hvideo]
    decide +kernel
  · rw [haudio]
    decide +kernel

end RoomRtc.Media
