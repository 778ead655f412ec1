import RoomRtc.Media.MediaDelivery

/-! The initialisation vectors of a call. Both sender threads count from 0 and share one key, so
what keeps two cipher calls apart is the sequence number within a stream and the SSRC between the
two streams. -/
namespace RoomRtc.Media
open Transport Srtp
set_option autoImplicit false

/-! ## Numbers within a stream -/

theorem packetStream_numbered {config : MediaConfig} (frames : List EncodedFrame) (n k : ℕ) {packet : RtpPacket}
    (h : (packetStream config frames (satSeq n))[k]? = some packet) :
    packet.seq = satSeq (n + k) ∧ packet.ssrc = config.frameSsrc := by
  induction frames generalizing n k with
  | nil => simp [packetStream] at h
  | cons f frames ih =>
    rw [packetStream_cons] at h
    have hlen : (framePackets config f n).length = f.chunks.length := by simp [framePackets]
    by_cases hk : k < f.chunks.length
    · rw [List.getElem?_append_left (by omega)] at h
      obtain ⟨hlt, rfl⟩ := List.getElem?_eq_some_iff.mp h
      simp only [framePackets, List.getElem_map, List.getElem_range]
      exact ⟨chunkPacket_seq config f n k, rfl⟩
    · rw [List.getElem?_append_right (by omega), hlen] at h
      obtain ⟨hseq, hssrc⟩ := ih (n + f.chunks.length) (k - f.chunks.length) h
      rw [hseq, Nat.add_assoc, Nat.add_sub_cancel' (by omega)]
      exact ⟨rfl, hssrc⟩

theorem audioStream_numbered {config : CallMediaConfig} {recorded : List (BitVec 128 × List UInt8)} {k : ℕ}
    {packet : RtpPacket} (h : (audioStream config recorded)[k]? = some packet) :
    packet.seq = satSeq k ∧ packet.ssrc = config.audioSsrc := by
  obtain ⟨hlt, rfl⟩ := List.getElem?_eq_some_iff.mp h
  have hseq : satSeq k % 2 ^ 64 = satSeq k := Nat.mod_eq_of_lt (satSeq_lt k)
  simpa [audioStream, audioPacket, RtpPacket.seq, UInt64.toNat_ofNat'] using hseq

/-- The packets differ in what the IV is made of. -/
def Apart (p q : RtpPacket) : Prop := p.ssrc ≠ q.ssrc ∨ p.sequenceNumber ≠ q.sequenceNumber

/-- The counter of a stream does not come back. -/
theorem numbered_apart {packets : List RtpPacket} (h : ∀ k p, packets[k]? = some p → p.seq = satSeq k)
    (hlen : packets.length ≤ 2 ^ 64) : packets.Pairwise Apart := by
  rw [List.pairwise_iff_getElem]
  intro i j hi hj hij
  refine .inr fun heq => ?_
  have hi' := h i _ (List.getElem?_eq_getElem hi)
  have hj' := h j _ (List.getElem?_eq_getElem hj)
  have : satSeq i = satSeq j := by rw [← hi', ← hj', RtpPacket.seq, heq, RtpPacket.seq]
  unfold satSeq at this
  omega

/-! ## The IV of a cipher call -/

/-- The two packets are not encrypted under one IV. -/
def IvsDiffer (ctx : SrtpContext) (isClient : Bool) (p q : RtpPacket) : Prop :=
  ∀ r r', ctx.protectRequest p isClient = .ok r → ctx.protectRequest q isClient = .ok r' → r.iv ≠ r'.iv

theorem ivsDiffer_iff {ctx : SrtpContext} {isClient : Bool} (hsalt : (ctx.getWriteKeys isClient).2.length = 14)
    (p q : RtpPacket) : IvsDiffer ctx isClient p q ↔ Apart p q := by
  have hrequest : ∀ packet : RtpPacket, ctx.protectRequest packet isClient =
      .ok ⟨(ctx.getWriteKeys isClient).1,
        SrtpContext.getIv (ctx.getWriteKeys isClient).2 packet.ssrc packet.sequenceNumber,
          packet.toBytes.drop 33⟩ := by
    intro packet
    have hlen : ¬packet.toBytes.length < 33 := by
      rw [RtpPacket.toBytes_length]
      omega
    simp only [SrtpContext.protectRequest, if_neg hlen]
  constructor
  · intro h
    by_contra hsame
    simp only [Apart, not_or, not_not] at hsame
    exact h _ _ (hrequest p) (hrequest q) (by rw [hsame.1, hsame.2])
  · intro h r r' hr hr' heq
    cases (hrequest p).symm.trans hr
    cases (hrequest q).symm.trans hr'
    have hnumber := congrArg BigEndian.beNat heq
    dsimp only at hnumber
    rw [getIv_number _ hsalt, getIv_number _ hsalt] at hnumber
    obtain ⟨hssrc, hseq⟩ := streamStart_inj hnumber
    exact h.elim (fun hne => hne hssrc) fun hne => hne hseq

/-- **When no IV is used twice.** In a call of at most `2^64` packets no two of them are encrypted
under one IV just when the two SSRCs of the configuration differ or one of the streams is empty. -/
theorem ivs_differ_iff (call : CallSetting) {keyingMaterial : List UInt8}
    (hctx : SrtpContext.new keyingMaterial = .ok call.srtpCtx) {moves : List PathMove} {s : MediaPath}
    {os : List Unit} (hrun : (mediaMachine call).run {} moves = some (s, os)) (hlen : s.rtp.sent.length ≤ 2 ^ 64) :
    s.rtp.sent.Pairwise (IvsDiffer call.srtpCtx call.isClient) ↔
      call.config.frameSsrc ≠ call.config.audioSsrc ∨ s.rtp.sent.length = s.recorded.length ∨
      s.recorded = [] := by
  have hsalt : (call.srtpCtx.getWriteKeys call.isClient).2.length = 14 := by
    obtain ⟨h, hl⟩ := new_writeSalt hctx call.isClient
    rw [h, hl]
  obtain ⟨video, hv, hmerge⟩ := (Threaded.run hrun).produced
  have hsize := hmerge.length
  have hvideo : ∀ k p, video[k]? = some p → p.seq = satSeq k ∧ p.ssrc = call.config.frameSsrc := by
    intro k p hp
    obtain ⟨more, hmore⟩ := hv.begins
    have hk : k < video.length := (List.getElem?_eq_some_iff.mp hp).1
    have hstream : (packetStream call.config.toMediaConfig s.encoded (satSeq 0))[k]? = some p := by
      rw [show satSeq 0 = 0 from rfl, ← hmore, List.getElem?_append_left hk, hp]
    have h := packetStream_numbered s.encoded 0 k hstream
    rwa [Nat.zero_add] at h
  have hcount : (audioStream call.config s.recorded).length = s.recorded.length := by simp [audioStream]
  have hswap : ∀ p q, Apart p q → Apart q p := fun p q h => h.imp Ne.symm Ne.symm
  have hiff : s.rtp.sent.Pairwise (IvsDiffer call.srtpCtx call.isClient) ↔ s.rtp.sent.Pairwise Apart := by
    constructor
    · exact fun h => h.imp fun hpq => (ivsDiffer_iff hsalt _ _).mp hpq
    · exact fun h => h.imp fun hpq => (ivsDiffer_iff hsalt _ _).mpr hpq
  rw [hiff, hmerge.pairwise_iff hswap]
  constructor
  · rintro ⟨_, _, hcross⟩
    by_contra hcon
    simp only [not_or, not_not] at hcon
    obtain ⟨hssrc, hsome, hrec⟩ := hcon
    -- the first packets of the two streams
    have hv₀ : 0 < video.length := by omega
    have ha₀ : 0 < (audioStream call.config s.recorded).length := by
      rw [hcount]
      exact List.length_pos_of_ne_nil hrec
    obtain ⟨hseq, hframe⟩ := hvideo 0 _ (List.getElem?_eq_getElem hv₀)
    obtain ⟨hseq', haudio⟩ := audioStream_numbered (List.getElem?_eq_getElem ha₀)
    rcases hcross _ (List.getElem_mem hv₀) _ (List.getElem_mem ha₀) with hne | hne
    · exact hne (by rw [hframe, haudio, hssrc])
    · exact hne (UInt64.toNat_inj.mp (hseq.trans hseq'.symm))
  · intro h
    refine ⟨numbered_apart (fun k p hp => (hvideo k p hp).1) (by omega),
      numbered_apart (fun k p hp => (audioStream_numbered hp).1) (by omega), ?_⟩
    intro p hp q hq
    rcases h with hssrc | hnone | hrec
    · obtain ⟨k, hk⟩ := List.getElem?_of_mem hp
      obtain ⟨k', hk'⟩ := List.getElem?_of_mem hq
      left
      rw [(hvideo k p hk).2, (audioStream_numbered hk').2]
      exact hssrc
    · have hnil : video = [] := List.eq_nil_of_length_eq_zero (by omega)
      rw [hnil] at hp
      cases hp
    · rw [hrec] at hq
      cases hq

/-- With the SSRCs of the configuration file a picture and a sound get different IVs. -/
theorem picture_and_sound_apart : ∃ s os, (mediaMachine zeroCall).run {} pictureAndSound = some (s, os) ∧
    s.rtp.sent.length = 2 ∧ s.rtp.sent.Pairwise (IvsDiffer zeroCall.srtpCtx zeroCall.isClient) := by
  have hrun : ((mediaMachine zeroCall).run {} pictureAndSound).map (fun r => r.1.rtp.sent.length) = some 2 := by
    decide +kernel
  obtain ⟨⟨s, os⟩, hr, hlen⟩ := Option.map_eq_some_iff.mp hrun
  have hlen' : s.rtp.sent.length = 2 := hlen
  exact ⟨s, os, hr, hlen', (ivs_differ_iff zeroCall zeroCall_keys hr (by rw [hlen']; decide)).mpr
    (.inl (by decide))⟩

end RoomRtc.Media
