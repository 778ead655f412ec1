import RoomRtc.Srtp.Context

/-! Which AES counter blocks `protect` consumes. AES-128-CTR reads its 16-byte IV as a
big-endian counter and uses one block for every 16 bytes of payload, so a packet uses the
blocks `IV, IV+1, ..`. The sequence number stands in the lowest 64 bits of the IV, where
these blocks are counted: the streams of two packets start `1` apart when their sequence
numbers do. `protect_blocks_disjoint_iff` says which pairs of packets are still safe. -/
namespace RoomRtc.Srtp
open BigEndian Transport
set_option autoImplicit false

/-- The block space of AES. -/
def blockSpace : ℕ := 2 ^ 128

/-- The counter blocks of one cipher call, one for each started 16 bytes. -/
def SrtpContext.CtrRequest.blocks (r : SrtpContext.CtrRequest) : Finset ℕ :=
  counterBlocks blockSpace (beNat r.iv) ((r.data.length + 15) / 16)

/-- The counter blocks `protect` consumes, none when it fails before the cipher call. -/
def SrtpContext.protectBlocks (ctx : SrtpContext) (packet : RtpPacket) (isClient : Bool) : Finset ℕ :=
  match ctx.protectRequest packet isClient with
  | .ok request => request.blocks
  | .error _ => ∅

/-- Where the keystream of a packet starts: the 112-bit salt is XOR-ed with the SSRC and
the upper 48 bits of the sequence number, the lower 16 bits are left as they are. -/
def streamStart (salt : List UInt8) (ssrc : UInt32) (sequenceNumber : UInt64) : ℕ :=
  (beNat salt ^^^ (ssrc.toNat * 2 ^ 48 + sequenceNumber.toNat / 2 ^ 16)) * 2 ^ 16 +
    sequenceNumber.toNat % 2 ^ 16

/-- The payload that starts first ends, in blocks of 16 bytes, before the other one starts. -/
def Spaced (salt : List UInt8) (p q : RtpPacket) : Prop :=
  let x := streamStart salt p.ssrc p.sequenceNumber
  let y := streamStart salt q.ssrc q.sequenceNumber
  (x < y → q.payload = [] ∨ p.payload.length ≤ 16 * (y - x)) ∧
    (y < x → p.payload = [] ∨ q.payload.length ≤ 16 * (x - y))

/-! ## The IV as a number -/

theorem getIv_number (salt : List UInt8) (hs : salt.length = 14) (ssrc : UInt32)
    (sequenceNumber : UInt64) :
    beNat (SrtpContext.getIv salt ssrc sequenceNumber) = streamStart salt ssrc sequenceNumber := by
  have hiv : beNat (salt ++ List.replicate 2 0) = beNat salt * 2 ^ 16 + 0 := by
    rw [beNat_append, beNat_replicate_zero, List.length_replicate]
    norm_num
  have hblock : beNat (List.replicate 4 0 ++ beBytes 4 ssrc.toNat ++ beBytes 8 sequenceNumber.toNat) =
      (ssrc.toNat * 2 ^ 48 + sequenceNumber.toNat / 2 ^ 16) * 2 ^ 16 + sequenceNumber.toNat % 2 ^ 16 := by
    have h1 : ssrc.toNat % 256 ^ 4 = ssrc.toNat := Nat.mod_eq_of_lt ssrc.toNat_lt
    have h2 : sequenceNumber.toNat % 256 ^ 8 = sequenceNumber.toNat :=
      Nat.mod_eq_of_lt sequenceNumber.toNat_lt
    rw [beNat_append, beNat_append, beNat_beBytes, beNat_beBytes, h1, h2, beNat_replicate_zero,
      beBytes_length, beBytes_length]
    omega
  have htake : salt.take 14 = salt := List.take_of_length_le hs.le
  unfold SrtpContext.getIv streamStart
  simp only [hs, Nat.min_self, htake]
  rw [beNat_xorBytes _ _ (by simp [hs]), hiv, hblock,
    xor_split 16 _ _ _ _ (by norm_num) (Nat.mod_lt _ (by norm_num)), Nat.zero_xor]

/-- Both streams of one direction lie in the same 1/2^32 of the block space: the first four
salt bytes are XOR-ed with nothing. -/
theorem streamStart_top (salt : List UInt8) (ssrc : UInt32) (sequenceNumber : UInt64) :
    streamStart salt ssrc sequenceNumber / 2 ^ 96 = beNat salt / 2 ^ 80 := by
  have h1 := ssrc.toNat_lt
  have h2 := sequenceNumber.toNat_lt
  have hlow : ssrc.toNat * 2 ^ 48 + sequenceNumber.toNat / 2 ^ 16 < 2 ^ 80 := by omega
  have hx : beNat salt ^^^ (ssrc.toNat * 2 ^ 48 + sequenceNumber.toNat / 2 ^ 16) =
      (beNat salt / 2 ^ 80) * 2 ^ 80 +
        (beNat salt % 2 ^ 80 ^^^ (ssrc.toNat * 2 ^ 48 + sequenceNumber.toNat / 2 ^ 16)) := by
    have h := xor_split 80 (beNat salt / 2 ^ 80) (beNat salt % 2 ^ 80) 0
      (ssrc.toNat * 2 ^ 48 + sequenceNumber.toNat / 2 ^ 16) (Nat.mod_lt _ (by norm_num)) hlow
    rwa [Nat.xor_zero, Nat.zero_mul, Nat.zero_add, Nat.div_add_mod'] at h
  have hr : beNat salt % 2 ^ 80 ^^^ (ssrc.toNat * 2 ^ 48 + sequenceNumber.toNat / 2 ^ 16) < 2 ^ 80 :=
    Nat.xor_lt_two_pow (Nat.mod_lt _ (by norm_num)) hlow
  unfold streamStart
  rw [hx]
  omega

theorem streamStart_lt (salt : List UInt8) (hs : salt.length = 14) (ssrc : UInt32)
    (sequenceNumber : UInt64) : streamStart salt ssrc sequenceNumber < blockSpace := by
  have hsalt := beNat_lt salt
  rw [hs] at hsalt
  have htop := streamStart_top salt ssrc sequenceNumber
  unfold blockSpace
  omega

theorem streamStart_inj {salt : List UInt8} {ssrc ssrc' : UInt32} {n n' : UInt64}
    (h : streamStart salt ssrc n = streamStart salt ssrc' n') : ssrc = ssrc' ∧ n = n' := by
  have h1 := n.toNat_lt
  have h2 := n'.toNat_lt
  unfold streamStart at h
  have hlow : n.toNat % 2 ^ 16 = n'.toNat % 2 ^ 16 := by omega
  have hhigh : beNat salt ^^^ (ssrc.toNat * 2 ^ 48 + n.toNat / 2 ^ 16) =
      beNat salt ^^^ (ssrc'.toNat * 2 ^ 48 + n'.toNat / 2 ^ 16) := by omega
  have hx := Nat.xor_right_injective hhigh
  exact ⟨UInt32.toNat.inj (by omega), UInt64.toNat.inj (by omega)⟩

/-! ## The blocks of a packet -/

theorem protectBlocks_eq (ctx : SrtpContext) (isClient : Bool)
    (hs : (ctx.getWriteKeys isClient).2.length = 14) (p : RtpPacket) :
    ctx.protectBlocks p isClient =
      counterBlocks blockSpace (streamStart (ctx.getWriteKeys isClient).2 p.ssrc p.sequenceNumber)
        ((p.payload.length + 15) / 16) := by
  have hlen : ¬ p.toBytes.length < 33 := by
    rw [RtpPacket.toBytes_length]
    omega
  simp only [SrtpContext.protectBlocks, SrtpContext.protectRequest, if_neg hlen,
    SrtpContext.CtrRequest.blocks, RtpPacket.toBytes_drop, getIv_number _ hs]

/-- Two packets of one direction: the stream that starts first must stop in time. -/
theorem blocks_disjoint_of_lt {salt : List UInt8} (hs : salt.length = 14) {p q : RtpPacket}
    (hq : q.payload.length ≤ 65535)
    (hlt : streamStart salt p.ssrc p.sequenceNumber < streamStart salt q.ssrc q.sequenceNumber) :
    Disjoint
        (counterBlocks blockSpace (streamStart salt p.ssrc p.sequenceNumber) ((p.payload.length + 15) / 16))
        (counterBlocks blockSpace (streamStart salt q.ssrc q.sequenceNumber) ((q.payload.length + 15) / 16)) ↔
      q.payload = [] ∨ p.payload.length ≤
        16 * (streamStart salt q.ssrc q.sequenceNumber - streamStart salt p.ssrc p.sequenceNumber) := by
  have hy := streamStart_lt salt hs q.ssrc q.sequenceNumber
  have htp := streamStart_top salt p.ssrc p.sequenceNumber
  have htq := streamStart_top salt q.ssrc q.sequenceNumber
  have hround : streamStart salt q.ssrc q.sequenceNumber + (q.payload.length + 15) / 16 ≤
      streamStart salt p.ssrc p.sequenceNumber + blockSpace := by
    unfold blockSpace
    omega
  rw [counterBlocks_disjoint_iff hlt hy hround]
  have hz : (q.payload.length + 15) / 16 = 0 ↔ q.payload = [] := by
    rw [← List.length_eq_zero_iff]
    omega
  rw [hz]
  constructor
  · rintro (h | h)
    · exact Or.inl h
    · exact Or.inr (by omega)
  · rintro (h | h)
    · exact Or.inl h
    · exact Or.inr (by omega)

theorem blocks_disjoint_iff_spaced {salt : List UInt8} (hs : salt.length = 14) {p q : RtpPacket}
    (hne : (p.ssrc, p.sequenceNumber) ≠ (q.ssrc, q.sequenceNumber))
    (hp : p.payload.length ≤ 65535) (hq : q.payload.length ≤ 65535) :
    Disjoint
        (counterBlocks blockSpace (streamStart salt p.ssrc p.sequenceNumber) ((p.payload.length + 15) / 16))
        (counterBlocks blockSpace (streamStart salt q.ssrc q.sequenceNumber) ((q.payload.length + 15) / 16)) ↔
      Spaced salt p q := by
  have hxy : streamStart salt p.ssrc p.sequenceNumber ≠ streamStart salt q.ssrc q.sequenceNumber := by
    intro he
    obtain ⟨h1, h2⟩ := streamStart_inj he
    exact hne (by rw [h1, h2])
  unfold Spaced
  cases Nat.lt_or_gt_of_ne hxy with
  | inl hlt =>
    rw [blocks_disjoint_of_lt hs hq hlt]
    constructor
    · intro h
      exact ⟨fun _ => h, fun hc => absurd hlt (Nat.lt_asymm hc)⟩
    · intro h
      exact h.1 hlt
  | inr hgt =>
    rw [disjoint_comm, blocks_disjoint_of_lt hs hp hgt]
    constructor
    · intro h
      exact ⟨fun hc => absurd hgt (Nat.lt_asymm hc), fun _ => h⟩
    · intro h
      exact h.2 hgt

/-! ## Every context that `new` builds -/

/-- The salt `new` cuts out of the keying material for one direction. -/
def writeSalt (keyingMaterial : List UInt8) (isClient : Bool) : List UInt8 :=
  if isClient then slice keyingMaterial 32 46 else slice keyingMaterial 46 60

theorem new_writeSalt {km : List UInt8} {ctx : SrtpContext} (h : SrtpContext.new km = .ok ctx)
    (isClient : Bool) :
    (ctx.getWriteKeys isClient).2 = writeSalt km isClient ∧ (writeSalt km isClient).length = 14 := by
  unfold SrtpContext.new at h
  split at h
  · cases h
  · next hlen =>
    cases h
    cases isClient <;> simp [SrtpContext.getWriteKeys, writeSalt, slice] <;> omega

theorem new_ok {km : List UInt8} (hkm : 60 ≤ km.length) : ∃ ctx, SrtpContext.new km = .ok ctx :=
  ⟨_, if_neg (by omega)⟩

/-- Two packets of one direction share no keystream exactly when they are spaced: the
blocks of the one that starts first have to fit before the start of the other. -/
theorem protect_blocks_disjoint_iff (km : List UInt8) (hkm : 60 ≤ km.length) :
    ∃ ctx, SrtpContext.new km = .ok ctx ∧ ∀ (isClient : Bool) (p q : RtpPacket),
      (p.ssrc, p.sequenceNumber) ≠ (q.ssrc, q.sequenceNumber) →
      p.payload.length ≤ 65535 → q.payload.length ≤ 65535 →
      (Disjoint (ctx.protectBlocks p isClient) (ctx.protectBlocks q isClient) ↔
        Spaced (writeSalt km isClient) p q) := by
  obtain ⟨ctx, hctx⟩ := new_ok hkm
  refine ⟨ctx, hctx, ?_⟩
  intro isClient p q hne hp hq
  obtain ⟨hsalt, hlen⟩ := new_writeSalt hctx isClient
  rw [protectBlocks_eq ctx isClient (by rw [hsalt, hlen]) p,
    protectBlocks_eq ctx isClient (by rw [hsalt, hlen]) q, hsalt]
  exact blocks_disjoint_iff_spaced hlen hne hp hq

/-- A packet of SSRC 0 with the given sequence number and a payload of `n` zero bytes. -/
def zeroPacket (sequenceNumber : UInt64) (n : ℕ) : RtpPacket :=
  ⟨2, 1, 1, true, 96, sequenceNumber, 0, 0, List.replicate n 0⟩

/-- At zero keying material the theorem applies, and packets of one block are spaced. -/
theorem zero_key_one_block :
    ∃ ctx, SrtpContext.new (List.replicate 60 0) = .ok ctx ∧
      Disjoint (ctx.protectBlocks (zeroPacket 0 16) true) (ctx.protectBlocks (zeroPacket 1 16) true) := by
  obtain ⟨ctx, hctx, h⟩ := protect_blocks_disjoint_iff (List.replicate 60 0) (by decide)
  refine ⟨ctx, hctx, (h true (zeroPacket 0 16) (zeroPacket 1 16) (by decide) (by decide) (by decide)).mpr ?_⟩
  refine ⟨fun _ => Or.inr (by decide), fun hc => absurd hc (by decide)⟩

/-- Sequence numbers 0 and 1 with payloads of 17 bytes share the counter block 1. -/
theorem consecutive_packets_share_keystream :
    ¬ ∀ (km : List UInt8) (ctx : SrtpContext), 60 ≤ km.length → SrtpContext.new km = .ok ctx →
      ∀ (isClient : Bool) (p q : RtpPacket),
        (p.ssrc, p.sequenceNumber) ≠ (q.ssrc, q.sequenceNumber) →
        p.payload.length ≤ 65535 → q.payload.length ≤ 65535 →
        Disjoint (ctx.protectBlocks p isClient) (ctx.protectBlocks q isClient) := by
  intro hall
  have hd := hall (List.replicate 60 0) _ (by decide) rfl true (zeroPacket 0 17) (zeroPacket 1 17)
    (by decide) (by decide) (by decide)
  exact absurd hd (by decide)

end RoomRtc.Srtp
