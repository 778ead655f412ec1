import RoomRtc.Jitter.PerfectNetwork
import RoomRtc.Media.MediaDelivery

/-! From the encoder to the screen of the peer. Whatever the network does, what the remote frame
pipeline hands to its decoder is the bitstream of a frame that was encoded; and when the network
keeps the order and loses nothing, it is all of them. -/
namespace RoomRtc.Media
open Transport Srtp Jitter
set_option autoImplicit false

/-! ## The frame pipeline and its buffer -/

/-- The pipeline against the channel before it: its buffer has seen the first packets, with a `pop`
after each. `T` holds of every operation in the state in which it was carried out. -/
structure Buffered (call : CallSetting) (T : JitterBuffer → Op → Prop) (s : MediaPath) : Prop where
  lives : s.framePipeline ≠ .ended → s.videoRx.opened = true
  plan : ∃ plan outputs, s.videoRx.Carries Answer.pass (plan.map Prod.fst) ∧
    (machine call.jitterBuffSize).run JitterBuffer.new (feed plan) = some (s.jitterBuffer, outputs) ∧
    s.played = deliveries outputs ∧ (machine call.jitterBuffSize).Guarded T JitterBuffer.new (feed plan)

/-- A turn of the pipeline meets `T` in its `pop`. -/
def PopMeets (call : CallSetting) (T : JitterBuffer → Op → Prop) (s : MediaPath) : PathMove → Prop
  | .play clk _ => ∀ packet added, s.videoRx.next = some packet →
      s.jitterBuffer.add call.jitterBuffSize packet = .ok added → T added (.pop clk)
  | _ => True

namespace Buffered
variable {T : JitterBuffer → Op → Prop} {call : CallSetting} {s : MediaPath}

theorem new (call : CallSetting) (T : JitterBuffer → Op → Prop) : Buffered call T {} where
  lives := fun _ => rfl
  plan := ⟨[], [], .new, rfl, rfl, trivial⟩

/-- Nothing but the demuxer and the pipeline touches what the invariant speaks about. -/
theorem congr {t : MediaPath} (h : Buffered call T s) (hpoint : t.framePipeline = s.framePipeline)
    (hrx : t.videoRx = s.videoRx) (hbuffer : t.jitterBuffer = s.jitterBuffer) (hplayed : t.played = s.played) :
    Buffered call T t := by
  obtain ⟨hlives, hplan⟩ := h
  constructor
  · rw [hpoint, hrx]
    exact hlives
  · rw [hrx, hbuffer, hplayed]
    exact hplan

theorem endPipeline (h : Buffered call T s) : Buffered call T s.endPipeline := by
  obtain ⟨plan, outputs, hcarries, hrest⟩ := h.plan
  exact ⟨fun hl => (hl rfl).elim, plan, outputs, hcarries.close, hrest⟩

theorem pipelineCheck (h : Buffered call T s) : Buffered call T s.pipelineCheck := by
  unfold MediaPath.pipelineCheck
  split
  · next hs =>
    split
    · exact ⟨fun _ => h.lives (by simp [hs]), h.plan⟩
    · exact h.endPipeline
  · exact h

/-- What the demuxer sends to the video pipeline comes behind. -/
theorem demux (h : Buffered call T s) : Buffered call T (s.demux call) := by
  obtain ⟨plan, outputs, hcarries, hrest⟩ := h.plan
  unfold MediaPath.demux
  split
  · split
    · split
      · exact h
      · exact h.congr rfl rfl rfl rfl
    · dsimp only
      split
      · exact h.congr rfl rfl rfl rfl
      · split
        · split
          · exact h.congr rfl rfl rfl rfl
          · next videoRx hs =>
            refine ⟨fun hl => ?_, plan, outputs, hcarries.send hs, hrest⟩
            rw [Pipe.send_opened hs]
            exact h.lives hl
        · split
          · split
            · exact h.congr rfl rfl rfl rfl
            · exact h.congr rfl rfl rfl rfl
          · exact h.congr rfl rfl rfl rfl
  · exact h

theorem play (hT : ∀ b packet, T b (.add packet)) (h : Buffered call T s) (clk : ℕ → ℕ) (refused : Bool)
    (hmeets : PopMeets call T s (.play clk refused)) : Buffered call T (s.play call clk refused) := by
  obtain ⟨plan, outputs, hcarries, hrun, hplayed, hguard⟩ := h.plan
  unfold MediaPath.play
  split
  · next hs =>
    have ho := h.lives (by simp [hs])
    split
    · split
      · exact h
      · exact h.endPipeline
    · next packet hn =>
      have hdropped : Buffered call T (MediaPath.endPipeline { s with videoRx := s.videoRx.take }) :=
        ⟨fun hl => (hl rfl).elim, plan, outputs, hcarries.drop hn, hrun, hplayed, hguard⟩
      dsimp only
      split
      · exact hdropped
      · next added hadd =>
        split
        · exact hdropped
        · next chunks jitterBuffer hpop =>
          have hfeed : feed (plan ++ [(packet, clk)]) = feed plan ++ [.add packet, .pop clk] := feed_append _ _
          have hturn : (machine call.jitterBuffSize).run s.jitterBuffer [.add packet, .pop clk] =
              some (jitterBuffer, [none, chunks]) :=
            (machine call.jitterBuffSize).run_cons (step_add.mpr ⟨hadd, rfl⟩)
              ((machine call.jitterBuffSize).run_cons (step_pop.mpr hpop) rfl)
          have hplayed' : Buffered call T { s with
              videoRx := s.videoRx.take, jitterBuffer := jitterBuffer,
              played := s.played ++ chunks.toList, framePipeline := .check } := by
            refine ⟨fun _ => ho, plan ++ [(packet, clk)], outputs ++ [none, chunks], ?_, ?_, ?_, ?_⟩
            · rw [List.map_append]
              exact hcarries.pass ho hn rfl
            · rw [hfeed]
              exact (machine call.jitterBuffSize).run_append hrun hturn
            · rw [hplayed, deliveries, deliveries, List.filterMap_append]
              cases chunks <;> rfl
            · rw [hfeed]
              refine (machine call.jitterBuffSize).guarded_append_intro hguard fun t os hr => ?_
              cases hrun.symm.trans hr
              refine ⟨hT _ _, fun b o hstep => ?_⟩
              obtain ⟨hb, _⟩ := step_add.mp hstep
              exact ⟨hmeets packet b hn hb, fun _ _ _ => trivial⟩
          split
          · exact hplayed'.endPipeline
          · exact hplayed'
  · exact h

theorem step (hT : ∀ b packet, T b (.add packet)) (h : Buffered call T s) (move : PathMove)
    (hmeets : PopMeets call T s move) :
    Buffered call T (s.step call move) := by
  cases move with
  | demux => exact h.demux
  | pipelineCheck => exact h.pipelineCheck
  | play clk refused => exact h.play hT clk refused hmeets
  | encode frame =>
    simp only [MediaPath.step, MediaPath.encode]
    repeat' split
    all_goals exact h.congr rfl rfl rfl rfl
  | sendChunk =>
    simp only [MediaPath.step, MediaPath.sendChunk]
    repeat' split
    all_goals exact h.congr rfl rfl rfl rfl
  | record timestamp encodedBytes =>
    simp only [MediaPath.step, MediaPath.record]
    repeat' split
    all_goals exact h.congr rfl rfl rfl rfl
  | senderCheck =>
    simp only [MediaPath.step, MediaPath.senderCheck, MediaPath.endSender]
    repeat' split
    all_goals exact h.congr rfl rfl rfl rfl
  | sendPacket answered =>
    simp only [MediaPath.step, MediaPath.sendPacket, MediaPath.endSender]
    repeat' split
    all_goals exact h.congr rfl rfl rfl rfl
  | receiverCheck =>
    simp only [MediaPath.step, MediaPath.receiverCheck]
    repeat' split
    all_goals exact h.congr rfl rfl rfl rfl
  | receive arrival =>
    simp only [MediaPath.step, MediaPath.receive]
    repeat' split
    all_goals exact h.congr rfl rfl rfl rfl
  | receiveFails =>
    simp only [MediaPath.step, MediaPath.receiveFails]
    repeat' split
    all_goals exact h.congr rfl rfl rfl rfl
  | microphoneEnds => exact h.congr rfl rfl rfl rfl
  | protect => exact h.congr rfl rfl rfl rfl
  | disconnect => exact h.congr rfl rfl rfl rfl
  | unprotect => exact h.congr rfl rfl rfl rfl
  | audioPlaybackEnds => exact h.congr rfl rfl rfl rfl
  | peerDisconnect => exact h.congr rfl rfl rfl rfl

theorem run (hT : ∀ b packet, T b (.add packet)) {moves : List PathMove} {os : List Unit}
    (hmeets : (mediaMachine call).Guarded (PopMeets call T) {} moves)
    (hrun : (mediaMachine call).run {} moves = some (s, os)) : Buffered call T s := by
  refine (mediaMachine call).run_invariant (Buffered call T) ?_ (Buffered.new call T) hmeets hrun
  intro s move s' o h hG hstep
  cases hstep
  exact h.step hT move hG

end Buffered
/-! ## What the video pipeline is given -/

/-- The two sides agree on the payload types and tell video from sound. -/
structure Agreed (call : CallSetting) : Prop where
  video : call.peerConfig.videoPayloadType = call.config.videoPayloadType
  distinct : call.config.videoPayloadType ≠ call.config.audioPayloadType

section Streams
variable {call : CallSetting} {s : MediaPath}

theorem packetStream_isVideo (ha : Agreed call) {frames : List EncodedFrame} {packet : RtpPacket}
    (h : packet ∈ packetStream call.config.toMediaConfig frames 0) : isVideo call.peerConfig packet = true := by
  obtain ⟨j, i, ⟨f, c, _, _, rfl⟩⟩ := mem_packetStream.mp h
  exact decide_eq_true ha.video.symm

theorem audioStream_isVideo (ha : Agreed call) {recorded : List (BitVec 128 × List UInt8)} {packet : RtpPacket}
    (h : packet ∈ audioStream call.config recorded) : isVideo call.peerConfig packet = false := by
  obtain ⟨k, r, _, rfl⟩ := audioStream_get h
  exact decide_eq_false fun he => ha.distinct (ha.video.symm.trans he.symm)

/-- With no foreign datagram that passes for a packet, the video pipeline gets chunks of encoded frames. -/
theorem videoRx_sent (ha : Agreed call) (h : Threaded call s) (hssl : call.ssl.Sound) (hctx : call.srtpCtx.Sized)
    (hversion : call.config.rtpVersion = 2)
    (hforeign : ∀ d, Arrival.foreign d ∈ s.arrivals →
      accepted call.ssl call.srtpCtx (!call.isClient) (d.take 65535) = none)
    {packet : RtpPacket} (hp : packet ∈ s.videoRx.sent) :
    Sent call.config.toMediaConfig s.encoded packet := by
  obtain ⟨n, _, hvideo, _, _⟩ := h.delivered hssl hctx hversion
  rw [hvideo] at hp
  obtain ⟨hmem, hkind⟩ := List.mem_filter.mp hp
  obtain ⟨a, hmema, hpacket⟩ := List.mem_filterMap.mp hmem
  have hin := List.mem_of_mem_take hmema
  cases a with
  | foreign d =>
    rw [Arrival.packet, hforeign d hin] at hpacket
    cases hpacket
  | sent k =>
    obtain ⟨video, hv, hmerge⟩ := h.produced
    rcases hmerge.mem.mp (List.mem_of_getElem? hpacket) with hp | hp
    · exact hv.begins.subset hp
    · rw [audioStream_isVideo ha hp] at hkind
      cases hkind

end Streams

/-- What a buffer delivers that has seen nothing but packets of one sender. -/
theorem deliveries_are_frames {N : ℕ} (hN : 256 ≤ N) {config : MediaConfig} {frames : List EncodedFrame}
    (hinc : Increasing frames) (hcount : ∀ f ∈ frames, f.chunks.length ≤ 255) {ops : List Op}
    (hops : ∀ p, Op.add p ∈ ops → Sent config frames p) {b : JitterBuffer} {outputs : List (Option Delivery)}
    (hrun : (machine N).run JitterBuffer.new ops = some (b, outputs)) :
    ∀ d ∈ deliveries outputs, ∃ f ∈ frames, d.timestamp = f.frameTime.toNat ∧ d.data = f.chunks.flatten := by
  have hguard : (machine N).Guarded (fun _ op => ∀ p, op = .add p → Sent config frames p) JitterBuffer.new ops :=
    (machine N).guarded_of_forall fun op hop _ p hp => hops p (hp ▸ hop)
  refine ((machine N).run_induction (fun _ os b => b.Placed N (Sent config frames) ∧
    ∀ d ∈ deliveries os, ∃ f ∈ frames, d.timestamp = f.frameTime.toNat ∧ d.data = f.chunks.flatten) ?_
    ⟨JitterBuffer.placed_new N _, by simp [deliveries]⟩ hguard hrun).2
  rintro is os b op b' o ⟨hplaced, hout⟩ hop hstep
  refine ⟨JitterBuffer.placed_step hplaced hop hstep, ?_⟩
  intro d hd
  rw [deliveries_snoc] at hd
  rcases List.mem_append.mp hd with hd | hd
  · exact hout d hd
  · cases op with
    | add p =>
      rw [(step_add.mp hstep).2] at hd
      cases hd
    | pop clk =>
      have ho : o = some d := by simpa [eq_comm] using hd
      exact pop_delivers_frame hN hinc hcount hplaced (ho ▸ step_pop.mp hstep)

/-- **What is shown was filmed.** Under loss, repetition, reordering and any datagram that the peer
does not accept, and however the threads are interleaved: the bytes that the peer's pipeline gives
to its decoder are the whole bitstream of a frame that the encoder gave, with its capture time. -/
theorem played_was_encoded (call : CallSetting) (hssl : call.ssl.Sound) {keyingMaterial : List UInt8}
    (hctx : SrtpContext.new keyingMaterial = .ok call.srtpCtx) (hversion : call.config.rtpVersion = 2)
    (hsize : 256 ≤ call.jitterBuffSize) (ha : Agreed call) {moves : List PathMove} {s : MediaPath} {os : List Unit}
    (hrun : (mediaMachine call).run {} moves = some (s, os))
    (hforeign : ∀ d, Arrival.foreign d ∈ s.arrivals →
      accepted call.ssl call.srtpCtx (!call.isClient) (d.take 65535) = none)
    (hinc : Increasing s.encoded) (hcount : ∀ f ∈ s.encoded, f.chunks.length ≤ 255) :
    ∀ d ∈ s.played, ∃ f ∈ s.encoded, d.timestamp = f.frameTime.toNat ∧ d.data = f.chunks.flatten := by
  have h := Threaded.run hrun
  have hbuffered : Buffered call (fun _ _ => True) s := by
    refine Buffered.run (fun _ _ => trivial) ?_ hrun
    refine (mediaMachine call).guarded_of_forall fun move _ t => ?_
    cases move <;> simp [PopMeets]
  obtain ⟨plan, outputs, ⟨n, _, _, _, _, hplan⟩, hbuffer, hplayed, _⟩ := hbuffered.plan
  rw [hplayed]
  have hadds : ∀ packet, Op.add packet ∈ feed plan → Sent call.config.toMediaConfig s.encoded packet := by
    intro packet hp
    have hin : packet ∈ plan.map Prod.fst := mem_feed hp
    rw [hplan] at hin
    simp only [Answer.passed, List.filterMap_some] at hin
    exact videoRx_sent ha h hssl (sized_of_new hctx) hversion hforeign (List.mem_of_mem_take hin)
  exact deliveries_are_frames hsize hinc hcount hadds hbuffer

/-- A picture gets through although its sound is lost and a datagram from elsewhere comes first. -/
theorem picture_played : ∃ s os,
    (mediaMachine zeroCall).run {} (pictureAndSound ++
      [.receiverCheck, .receive (.foreign [0]), .receiverCheck, .receive (.sent 0), .unprotect, .unprotect, .demux,
        .pipelineCheck, .play (fun _ => 40) false]) = some (s, os) ∧
      s.played.length = 1 ∧ ∀ d ∈ s.played, d.timestamp = 5 ∧ d.data = [1, 2, 3, 4] := by
  have hrun : ((mediaMachine zeroCall).run {} (pictureAndSound ++
      [.receiverCheck, .receive (.foreign [0]), .receiverCheck, .receive (.sent 0), .unprotect, .unprotect, .demux,
        .pipelineCheck, .play (fun _ => 40) false])).map (fun r => (r.1.arrivals, r.1.encoded, r.1.played.length)) =
      some ([.foreign [0], .sent 0], [⟨[[1, 2, 3, 4]], 5, true⟩], 1) := by
    decide +kernel
  obtain ⟨⟨s, os⟩, hr, hfacts⟩ := Option.map_eq_some_iff.mp hrun
  simp only [Prod.mk.injEq] at hfacts
  obtain ⟨harrivals, hencoded, hplayed⟩ := hfacts
  refine ⟨s, os, hr, hplayed, ?_⟩
  intro d hd
  obtain ⟨f, hf, hts, hdata⟩ := played_was_encoded zeroCall SrtpContext.zeroBlockSsl_sound zeroCall_keys rfl
    (by decide) ⟨rfl, by decide⟩ hr (by
      intro datagram hin
      rw [harrivals] at hin
      simp only [List.mem_cons, Arrival.foreign.injEq, reduceCtorEq, List.not_mem_nil, or_false] at hin
      rw [hin]
      decide +kernel)
    (by rw [hencoded]; exact List.pairwise_singleton _ _) (by rw [hencoded]; decide) d hd
  rw [hencoded, List.mem_singleton] at hf
  subst hf
  exact ⟨hts, hdata⟩

/-- Nothing is on its way any more: the video thread waits for a picture, every thread is through
with its channel, and the socket of the peer gave what was sent, once and in order. -/
structure Settled (s : MediaPath) : Prop where
  video : s.videoSender = .waiting
  rtp : s.rtp.Drained
  protectedData : s.protectedData.Drained
  arrivals : s.arrivals = (List.range s.wire.length).map .sent
  received : s.received.Drained
  unprotected : s.unprotected.Drained
  videoRx : s.videoRx.Drained

theorem settled_iff (s : MediaPath) :
    Settled s ↔ s.videoSender = .waiting ∧ s.rtp.Drained ∧ s.protectedData.Drained ∧
    s.arrivals = (List.range s.wire.length).map .sent ∧ s.received.Drained ∧ s.unprotected.Drained ∧
    s.videoRx.Drained :=
  ⟨fun ⟨a, b, c, d, e, f, g⟩ => ⟨a, b, c, d, e, f, g⟩,
    fun ⟨a, b, c, d, e, f, g⟩ => ⟨a, b, c, d, e, f, g⟩⟩

instance (s : MediaPath) : Decidable (Settled s) := decidable_of_iff _ (settled_iff s).symm

/-- **A good network shows the whole film.** When nothing is lost or overtaken, the clock of the
pipeline is in time and every frame fits into the ring of its buffer, all encoded frames have been
given to the decoder once everything has been handed on: each once, whole and in order. (A deadline
beyond `u128` ends the pipeline, which then hands on no more.) -/
theorem film_shown (call : CallSetting) (hssl : call.ssl.Sound) {keyingMaterial : List UInt8}
    (hctx : SrtpContext.new keyingMaterial = .ok call.srtpCtx) (hversion : call.config.rtpVersion = 2)
    (hsize : 256 ≤ call.jitterBuffSize) (hcap : call.jitterBuffSize < 2 ^ 63) (ha : Agreed call)
    {moves : List PathMove} {s : MediaPath} {os : List Unit}
    (hrun : (mediaMachine call).run {} moves = some (s, os))
    (htime : (mediaMachine call).Guarded (PopMeets call Timely) {} moves) (hsettled : Settled s)
    (hfirst : ∀ f, s.encoded.head? = some f → f.isIFrame = true) (hinc : Increasing s.encoded)
    (hcount : ∀ f ∈ s.encoded, 1 ≤ f.chunks.length ∧ f.chunks.length ≤ 255)
    (hfits : ∀ j f, s.encoded[j]? = some f → Fits call.jitterBuffSize (startOf s.encoded j) f.chunks.length) :
    s.played.map Delivery.data = s.encoded.map fun f => f.chunks.flatten := by
  have h := Threaded.run hrun
  obtain ⟨plan, outputs, hcarries, hbuffer, hplayed, hguard⟩ :=
    (Buffered.run (fun _ _ => trivial) htime hrun).plan
  obtain ⟨video, hv, hmerge⟩ := h.produced
  rw [hsettled.video] at hv
  -- everything has gone over the wire
  have hwire : s.wire.length = s.rtp.sent.length := by
    rw [h.sender.of_drained hsettled.protectedData]
    exact (h.protection.map_of_no_skip (Threaded.protection_ne_skip call)).2.2 hsettled.rtp
  -- and has arrived
  have hpackets : s.arrivals.filterMap (Arrival.packet call s.rtp.sent) = s.rtp.sent := by
    rw [hsettled.arrivals, List.filterMap_map, hwire]
    exact filterMap_range_getElem? s.rtp.sent
  have hrx : s.videoRx.sent = packetStream call.config.toMediaConfig s.encoded 0 := by
    obtain ⟨n, _, hvideo, _, hall⟩ := h.delivered hssl (sized_of_new hctx) hversion
    rw [hvideo, hall hsettled.received hsettled.unprotected, List.take_length, hpackets, ← hv.1]
    refine (hmerge.filter ?_ fun p hp => audioStream_isVideo ha hp).1
    intro p hp
    rw [hv.1] at hp
    exact packetStream_isVideo ha hp
  have hplan : plan.map Prod.fst = packetStream call.config.toMediaConfig s.encoded (satSeq 0) := by
    rw [hcarries.of_drained hsettled.videoRx, hrx]
    rfl
  obtain ⟨b, outputs', hrun', hdata, _⟩ := frames_play hsize hcap s.encoded 0 JitterBuffer.new plan
    ⟨rfl, fun _ => rfl⟩ (fun _ => hfirst) (fun _ _ => Nat.zero_le _) hinc hcount
    (fun j f hf => by rw [Nat.zero_add]; exact hfits j f hf) hplan
    ((machine call.jitterBuffSize).guarded_and hguard (deadlineFits_of_run hbuffer))
  cases hbuffer.symm.trans hrun'
  rw [hplayed, hdata]

/-- An I-frame of two chunks and a P-frame of one. -/
def twoPictures : List PathMove :=
  [.encode (some ⟨[[1], [2]], 5, true⟩), .sendChunk, .sendChunk, .sendChunk,
    .encode (some ⟨[[3]], 45, false⟩), .sendChunk, .sendChunk, .protect, .protect, .protect,
    .senderCheck, .sendPacket true, .senderCheck, .sendPacket true, .senderCheck, .sendPacket true,
    .receiverCheck, .receive (.sent 0), .receiverCheck, .receive (.sent 1), .receiverCheck, .receive (.sent 2),
    .unprotect, .unprotect, .unprotect, .demux, .demux, .demux,
    .pipelineCheck, .play (fun _ => 0) false, .pipelineCheck, .play (fun _ => 0) false,
    .pipelineCheck, .play (fun _ => 0) false]

/-- A clock that stands at 0 is in time for everything. -/
def AtZero : PathMove → Bool
  | .play clk _ => decide (clk 0 = 0)
  | _ => true

theorem popMeets_atZero {move : PathMove} (h : AtZero move = true) (call : CallSetting) (s : MediaPath) :
    PopMeets call Timely s move := by
  cases move with
  | play clk refused =>
    intro packet added _ _ p _
    right
    rw [of_decide_eq_true h]
    exact Nat.zero_le _
  | _ => trivial

theorem two_pictures_shown : ∃ s os, (mediaMachine zeroCall).run {} twoPictures = some (s, os) ∧
    s.played.map Delivery.data = [[1, 2], [3]] := by
  have hrun : ((mediaMachine zeroCall).run {} twoPictures).map
      (fun r => (decide (Settled r.1), r.1.encoded)) =
        some (true, [⟨[[1], [2]], 5, true⟩, ⟨[[3]], 45, false⟩]) := by
    decide +kernel
  obtain ⟨⟨s, os⟩, hr, hfacts⟩ := Option.map_eq_some_iff.mp hrun
  simp only [Prod.mk.injEq, decide_eq_true_eq] at hfacts
  obtain ⟨hsettled, hencoded⟩ := hfacts
  refine ⟨s, os, hr, ?_⟩
  have hzero : ∀ move ∈ twoPictures, AtZero move = true := by decide
  have hshown := film_shown zeroCall SrtpContext.zeroBlockSsl_sound zeroCall_keys rfl (by decide) (by decide)
    ⟨rfl, by decide⟩ hr
    ((mediaMachine zeroCall).guarded_of_forall fun move hmove t =>
      popMeets_atZero (hzero move hmove) zeroCall t) hsettled
    (by rw [hencoded]; simp) (by rw [hencoded]; unfold Increasing; decide) (by rw [hencoded]; decide) (by
      rw [hencoded]
      intro j f hf
      match j, hf with
      | 0, hf => cases hf; unfold Fits; decide
      | 1, hf => cases hf; unfold Fits; decide)
  rw [hshown, hencoded]
  rfl

end RoomRtc.Media
