import RoomRtc.Transport.MediaTransport

/-! What one side protects the other side unprotects, and what one side accepts is what the other
side would have sent. The two directions use each other's keys, the IV comes once from the packet
and once from the bytes of its header. -/
namespace RoomRtc.Transport
open BigEndian
set_option autoImplicit false

/-! ## The packet and its bytes -/

namespace RtpPacket

/-- The header of a packet. -/
def header (p : RtpPacket) : List UInt8 :=
  [p.version <<< 6, p.marker, p.totalChunks, if p.isIFrame then 1 else 0, p.payloadType] ++
    (beBytes 8 p.sequenceNumber.toNat ++ (beBytes 16 p.timestamp.toNat ++ beBytes 4 p.ssrc.toNat))

theorem header_length (p : RtpPacket) : p.header.length = 33 := by
  simp [header]

theorem toBytes_eq (p : RtpPacket) : p.toBytes = p.header ++ p.payload := by
  simp [toBytes, header]

theorem toBytes_take (p : RtpPacket) : p.toBytes.take 33 = p.header := by
  rw [toBytes_eq, List.take_left' (header_length p)]

/-- The sequence number and the SSRC as they stand in whatever starts with the header. -/
theorem header_sequenceNumber (p : RtpPacket) (rest : List UInt8) :
    UInt64.ofNat (beNat (((p.header ++ rest).drop 5).take 8)) = p.sequenceNumber := by
  have hdrop : (p.header ++ rest).drop 5 = beBytes 8 p.sequenceNumber.toNat ++
      (beBytes 16 p.timestamp.toNat ++ (beBytes 4 p.ssrc.toNat ++ rest)) := by
    simp [header]
  have hlt : p.sequenceNumber.toNat < 256 ^ 8 := p.sequenceNumber.toNat_lt
  rw [hdrop, List.take_left' (beBytes_length 8 _), beNat_beBytes, Nat.mod_eq_of_lt hlt, UInt64.ofNat_toNat]

theorem header_timestamp (p : RtpPacket) (rest : List UInt8) :
    BitVec.ofNat 128 (beNat (((p.header ++ rest).drop 13).take 16)) = p.timestamp := by
  have hdrop : (p.header ++ rest).drop 13 = beBytes 16 p.timestamp.toNat ++ (beBytes 4 p.ssrc.toNat ++ rest) := by
    have h5 : (p.header ++ rest).drop 5 = beBytes 8 p.sequenceNumber.toNat ++
        (beBytes 16 p.timestamp.toNat ++ (beBytes 4 p.ssrc.toNat ++ rest)) := by
      simp [header]
    rw [show 13 = 5 + 8 from rfl, ← List.drop_drop, h5, List.drop_left' (beBytes_length 8 _)]
  have hlt : p.timestamp.toNat < 256 ^ 16 := p.timestamp.isLt
  rw [hdrop, List.take_left' (beBytes_length 16 _), beNat_beBytes, Nat.mod_eq_of_lt hlt, BitVec.ofNat_toNat,
    BitVec.setWidth_eq]

theorem header_ssrc (p : RtpPacket) (rest : List UInt8) :
    UInt32.ofNat (beNat (((p.header ++ rest).drop 29).take 4)) = p.ssrc := by
  have hdrop : (p.header ++ rest).drop 29 = beBytes 4 p.ssrc.toNat ++ rest := by
    have h5 : (p.header ++ rest).drop 5 = (beBytes 8 p.sequenceNumber.toNat ++ beBytes 16 p.timestamp.toNat) ++
        (beBytes 4 p.ssrc.toNat ++ rest) := by
      simp [header]
    rw [show 29 = 5 + 24 from rfl, ← List.drop_drop, h5, List.drop_left' (by simp)]
  have hlt : p.ssrc.toNat < 256 ^ 4 := p.ssrc.toNat_lt
  rw [hdrop, List.take_left' (beBytes_length 4 _), beNat_beBytes, Nat.mod_eq_of_lt hlt, UInt32.ofNat_toNat]

theorem version_shift {v : UInt8} (h : v ≤ 3) : v <<< 6 >>> 6 = v := by
  have hall : ∀ n < 256, UInt8.ofNat n ≤ 3 → UInt8.ofNat n <<< 6 >>> 6 = UInt8.ofNat n := by decide +kernel
  have hv := hall v.toNat v.toNat_lt
  rw [UInt8.ofNat_toNat] at hv
  exact hv h

theorem fromBytes_toBytes {p : RtpPacket} (h : p.version ≤ 3) : fromBytes p.toBytes = some p := by
  have hlen : ¬p.toBytes.length < 33 := by
    rw [toBytes_length]
    omega
  have hflag : ((if p.isIFrame then 1 else 0 : UInt8) != 0) = p.isIFrame := by
    cases p.isIFrame <;> rfl
  rw [fromBytes, if_neg hlen, toBytes_drop, toBytes_eq, header_sequenceNumber, header_timestamp, header_ssrc]
  simp only [header, List.cons_append, List.getD_cons_zero, List.getD_cons_succ, hflag, version_shift h]

/-- The bits that no field is written to are zero. -/
def CanonicalHeader (b : List UInt8) : Prop := b.getD 0 0 &&& 63 = 0 ∧ (b.getD 3 0 = 0 ∨ b.getD 3 0 = 1)

instance (b : List UInt8) : Decidable (CanonicalHeader b) := inferInstanceAs (Decidable (_ ∧ _))

theorem shift_version {x : UInt8} (h : x &&& 63 = 0) : x >>> 6 <<< 6 = x := by
  have hall : ∀ n < 256, UInt8.ofNat n &&& 63 = 0 → UInt8.ofNat n >>> 6 <<< 6 = UInt8.ofNat n := by decide +kernel
  have hx := hall x.toNat x.toNat_lt
  rw [UInt8.ofNat_toNat] at hx
  exact hx h

theorem iFrame_byte {x : UInt8} (h : x = 0 ∨ x = 1) : (if (x != 0) = true then 1 else 0 : UInt8) = x := by
  obtain rfl | rfl := h <;> rfl

/-- Bytes with a canonical header are the bytes of the packet that is read from them. -/
theorem toBytes_of_fromBytes {data : List UInt8} {p : RtpPacket} (h : fromBytes data = some p)
    (hcanon : CanonicalHeader data) : p.toBytes = data := by
  unfold fromBytes at h
  split at h
  · cases h
  next hlen =>
  obtain rfl := Option.some.inj h
  -- the five single bytes, then the numbers
  obtain ⟨b0, b1, b2, b3, b4, rest, rfl⟩ : ∃ b0 b1 b2 b3 b4 rest, data = b0 :: b1 :: b2 :: b3 :: b4 :: rest := by
    match data, hlen with
    | b0 :: b1 :: b2 :: b3 :: b4 :: rest, _ => exact ⟨b0, b1, b2, b3, b4, rest, rfl⟩
    | [], hlen | [_], hlen | [_, _], hlen | [_, _, _], hlen | [_, _, _, _], hlen => simp at hlen
  have hrest : 28 ≤ rest.length := by
    simp only [List.length_cons] at hlen
    omega
  have hseq : beBytes 8 (UInt64.ofNat (beNat (rest.take 8))).toNat = rest.take 8 := by
    have hl : (rest.take 8).length = 8 := List.length_take_of_le (by omega)
    have hlt := beNat_lt (rest.take 8)
    rw [hl] at hlt
    rw [UInt64.toNat_ofNat_of_lt' hlt]
    exact beBytes_beNat hl
  have hts : beBytes 16 (BitVec.ofNat 128 (beNat ((rest.drop 8).take 16))).toNat = (rest.drop 8).take 16 := by
    have hl : ((rest.drop 8).take 16).length = 16 := by
      rw [List.length_take, List.length_drop]
      omega
    have hlt := beNat_lt ((rest.drop 8).take 16)
    rw [hl] at hlt
    rw [BitVec.toNat_ofNat, Nat.mod_eq_of_lt (by omega)]
    exact beBytes_beNat hl
  have hssrc : beBytes 4 (UInt32.ofNat (beNat ((rest.drop 24).take 4))).toNat = (rest.drop 24).take 4 := by
    have hl : ((rest.drop 24).take 4).length = 4 := by
      rw [List.length_take, List.length_drop]
      omega
    have hlt := beNat_lt ((rest.drop 24).take 4)
    rw [hl] at hlt
    rw [UInt32.toNat_ofNat_of_lt' hlt]
    exact beBytes_beNat hl
  have hcut : rest = rest.take 8 ++ ((rest.drop 8).take 16 ++ ((rest.drop 24).take 4 ++ rest.drop 28)) := by
    rw [show rest.drop 28 = (rest.drop 24).drop 4 by rw [List.drop_drop], List.take_append_drop,
      show rest.drop 24 = (rest.drop 8).drop 16 by rw [List.drop_drop], List.take_append_drop, List.take_append_drop]
  have hversion : b0 >>> 6 <<< 6 = b0 := shift_version hcanon.1
  have hframe : (if (b3 != 0) = true then 1 else 0 : UInt8) = b3 := iFrame_byte hcanon.2
  simp only [toBytes, List.getD_cons_zero, List.getD_cons_succ, List.drop_succ_cons, List.drop_zero,
    List.append_assoc, hversion, hframe, hseq, hts, hssrc]
  rw [← hcut]
  rfl

end RtpPacket
end RoomRtc.Transport

namespace RoomRtc.Srtp
open BigEndian Transport
set_option autoImplicit false

/-! ## The library -/

/-- What the layer relies on: with a key and an IV of 16 bytes the two directions of AES-128-CTR
undo each other and keep the length, and HMAC-SHA1 gives 20 bytes. -/
structure OpenSsl.Sound (ssl : OpenSsl) : Prop where
  encrypt_total : ∀ key iv data : List UInt8, key.length = 16 → iv.length = 16 →
    ∃ out, ssl.encrypt key iv data = .ok out ∧ out.length = data.length
  decrypt_total : ∀ key iv data : List UInt8, key.length = 16 → iv.length = 16 →
    ∃ out, ssl.decrypt key iv data = .ok out ∧ out.length = data.length
  decrypt_encrypt : ∀ key iv data out : List UInt8, key.length = 16 → iv.length = 16 →
    ssl.encrypt key iv data = .ok out → ssl.decrypt key iv out = .ok data
  encrypt_decrypt : ∀ key iv data out : List UInt8, key.length = 16 → iv.length = 16 →
    ssl.decrypt key iv data = .ok out → ssl.encrypt key iv out = .ok data
  hmac_total : ∀ key data : List UInt8, key.length = 16 →
    ∃ mac, ssl.hmacSha1 key data = .ok mac ∧ mac.length = 20

/-! ## Keys -/

namespace SrtpContext

/-- The lengths of the keys and salts. -/
structure Sized (ctx : SrtpContext) : Prop where
  clientKey : ctx.clientWriteKey.length = 16
  serverKey : ctx.serverWriteKey.length = 16
  clientSalt : ctx.clientWriteSalt.length = 14
  serverSalt : ctx.serverWriteSalt.length = 14

theorem new_sized {keyingMaterial : List UInt8} (h : 60 ≤ keyingMaterial.length) :
    ∃ ctx, new keyingMaterial = .ok ctx ∧ ctx.Sized := by
  refine ⟨_, if_neg (by omega), ?_⟩
  constructor <;> simp [slice] <;> omega

theorem readKeys_not (ctx : SrtpContext) (isClient : Bool) :
    ctx.getReadKeys (!isClient) = ctx.getWriteKeys isClient := by
  cases isClient <;> rfl

theorem writeKeys_not (ctx : SrtpContext) (isClient : Bool) :
    ctx.getWriteKeys (!isClient) = ctx.getReadKeys isClient := by
  cases isClient <;> rfl

theorem Sized.writeKeys {ctx : SrtpContext} (h : ctx.Sized) (isClient : Bool) :
    (ctx.getWriteKeys isClient).1.length = 16 ∧ (ctx.getWriteKeys isClient).2.length = 14 := by
  cases isClient with
  | true => exact ⟨h.clientKey, h.clientSalt⟩
  | false => exact ⟨h.serverKey, h.serverSalt⟩

theorem getIv_length {salt : List UInt8} (h : salt.length = 14) (ssrc : UInt32) (sequenceNumber : UInt64) :
    (getIv salt ssrc sequenceNumber).length = 16 := by
  simp [getIv, xorBytes, h]

/-! ## The bytes of a protected packet -/

variable {ssl : OpenSsl} {ctx : SrtpContext} {isClient : Bool}

theorem applyAesCtr_encrypt {key iv data out : List UInt8} (h : ssl.encrypt key iv data = .ok out) :
    applyAesCtr ssl key iv data true = .ok out := by
  show (ssl.encrypt key iv data).mapError _ = _
  rw [h]
  rfl

theorem applyAesCtr_decrypt {key iv data out : List UInt8} :
    applyAesCtr ssl key iv data false = .ok out ↔ ssl.decrypt key iv data = .ok out := by
  show (ssl.decrypt key iv data).mapError _ = _ ↔ _
  cases ssl.decrypt key iv data with
  | error e => exact ⟨nofun, nofun⟩
  | ok out' => exact ⟨fun h => congrArg _ (Except.ok.inj h), fun h => congrArg _ (Except.ok.inj h)⟩

theorem calculateHmac_ok (h : ssl.Sound) {key : List UInt8} (hkey : key.length = 16) (data : List UInt8) :
    ∃ tag, calculateHmac ssl key data = .ok tag ∧ tag.length = 10 := by
  obtain ⟨mac, hmac, hlen⟩ := h.hmac_total key data hkey
  refine ⟨mac.take 10, ?_, by simp [hlen]⟩
  rw [calculateHmac, hmac]
  rfl

/-- What `protect` sends: the header, the encrypted payload, and the tag of both. -/
theorem protect_ok {packet : RtpPacket} {key salt encrypted tag : List UInt8}
    (hkeys : ctx.getWriteKeys isClient = (key, salt))
    (hencrypt : ssl.encrypt key (getIv salt packet.ssrc packet.sequenceNumber) packet.payload = .ok encrypted)
    (htag : calculateHmac ssl key (packet.header ++ encrypted) = .ok tag) :
    ctx.protect ssl packet isClient = .ok (packet.header ++ encrypted ++ tag) := by
  have hrequest : ctx.protectRequest packet isClient =
      .ok ⟨key, getIv salt packet.ssrc packet.sequenceNumber, packet.payload⟩ := by
    have hlen : ¬packet.toBytes.length < 33 := by
      rw [RtpPacket.toBytes_length]
      omega
    simp only [protectRequest, hkeys, if_neg hlen, RtpPacket.toBytes_drop]
  unfold protect
  rw [hrequest]
  show (applyAesCtr ssl key _ packet.payload true >>= _) = _
  rw [applyAesCtr_encrypt hencrypt]
  show (calculateHmac ssl key (packet.toBytes.take 33 ++ encrypted) >>= _) = _
  rw [RtpPacket.toBytes_take, htag]
  rfl

/-- What `unprotect` has checked and read of the bytes it accepts. -/
theorem unprotect_ok_iff {key salt packetBytes : List UInt8} {packet : RtpPacket}
    (hkeys : ctx.getReadKeys isClient = (key, salt)) :
    ctx.unprotect ssl packetBytes isClient = .ok packet ↔
      33 + 10 ≤ packetBytes.length ∧
      calculateHmac ssl key (packetBytes.take (packetBytes.length - 10)) =
        .ok (packetBytes.drop (packetBytes.length - 10)) ∧
      ∃ decrypted, ssl.decrypt key (getIv salt (UInt32.ofNat (beNat (slice packetBytes 29 33)))
          (UInt64.ofNat (beNat (slice packetBytes 5 13)))) ((packetBytes.take (packetBytes.length - 10)).drop 33) =
          .ok decrypted ∧
        RtpPacket.fromBytes ((packetBytes.take (packetBytes.length - 10)).take 33 ++ decrypted) = some packet := by
  unfold unprotect
  by_cases hlen : packetBytes.length < 33 + 10
  · rw [if_pos hlen]
    exact ⟨nofun, fun h => absurd h.1 (by omega)⟩
  rw [if_neg hlen, hkeys]
  show (calculateHmac ssl key _ >>= _) = _ ↔ _
  cases hmac : calculateHmac ssl key (packetBytes.take (packetBytes.length - 10)) with
  | error e => exact ⟨nofun, fun h => nomatch h.2.1⟩
  | ok calculated =>
    show (if calculated ≠ packetBytes.drop (packetBytes.length - 10) then _ else _) = _ ↔ _
    by_cases htag : calculated = packetBytes.drop (packetBytes.length - 10)
    · rw [if_neg (not_not_intro htag)]
      show (applyAesCtr ssl key _ _ false >>= _) = _ ↔ _
      cases hdecrypt : applyAesCtr ssl key (getIv salt (UInt32.ofNat (beNat (slice packetBytes 29 33)))
          (UInt64.ofNat (beNat (slice packetBytes 5 13))))
            ((packetBytes.take (packetBytes.length - 10)).drop 33) false with
      | error e =>
        refine ⟨nofun, ?_⟩
        rintro ⟨_, _, decrypted, hok, _⟩
        rw [applyAesCtr_decrypt.mpr hok] at hdecrypt
        cases hdecrypt
      | ok decrypted =>
        have hok := applyAesCtr_decrypt.mp hdecrypt
        show Except.bind (.ok decrypted) _ = _ ↔ _
        rw [Except.bind]
        constructor
        · intro h
          refine ⟨by omega, by rw [htag], decrypted, hok, ?_⟩
          cases hread : RtpPacket.fromBytes ((packetBytes.take (packetBytes.length - 10)).take 33 ++ decrypted) with
          | none =>
            rw [hread] at h
            cases h
          | some packet' =>
            rw [hread] at h
            exact congrArg some (Except.ok.inj h)
        · rintro ⟨_, _, decrypted', hok', hread⟩
          rw [hok] at hok'
          obtain rfl := Except.ok.inj hok'
          rw [hread]
          rfl
    · rw [if_pos htag]
      exact ⟨nofun, fun h => absurd (Except.ok.inj h.2.1) htag⟩

theorem split_tag {content tag : List UInt8} (h : tag.length = 10) :
    (content ++ tag).take ((content ++ tag).length - 10) = content ∧
      (content ++ tag).drop ((content ++ tag).length - 10) = tag := by
  have hlen : (content ++ tag).length - 10 = content.length := by
    rw [List.length_append]
    omega
  rw [hlen]
  exact ⟨List.take_left, List.drop_left⟩

theorem slice_eq (bytes : List UInt8) (lo n : ℕ) : slice bytes lo (lo + n) = (bytes.drop lo).take n := by
  rw [slice, List.drop_take, Nat.add_sub_cancel_left]

/-- A protected packet is unprotected by the other side. -/
theorem unprotect_protect (hssl : ssl.Sound) (hctx : ctx.Sized) {packet : RtpPacket} (hversion : packet.version ≤ 3)
    (isClient : Bool) : ∃ encrypted tag, ctx.protect ssl packet isClient = .ok (packet.header ++ encrypted ++ tag) ∧
      ctx.unprotect ssl (packet.header ++ encrypted ++ tag) (!isClient) = .ok packet := by
  obtain ⟨hkey, hsalt⟩ := hctx.writeKeys isClient
  obtain ⟨key, salt, hkeys⟩ : ∃ key salt, ctx.getWriteKeys isClient = (key, salt) := ⟨_, _, rfl⟩
  rw [hkeys] at hkey hsalt
  have hiv := getIv_length hsalt packet.ssrc packet.sequenceNumber
  obtain ⟨encrypted, hencrypt, _⟩ := hssl.encrypt_total key _ packet.payload hkey hiv
  obtain ⟨tag, htag, htaglen⟩ := calculateHmac_ok hssl hkey (packet.header ++ encrypted)
  have hheader := RtpPacket.header_length packet
  refine ⟨encrypted, tag, protect_ok hkeys hencrypt htag, ?_⟩
  obtain ⟨hcontent, hlast⟩ := @split_tag (packet.header ++ encrypted) tag htaglen
  rw [unprotect_ok_iff ((readKeys_not ctx isClient).trans hkeys), hcontent, hlast]
  refine ⟨?_, htag, packet.payload, ?_, ?_⟩
  · simp only [List.length_append, hheader, htaglen]
    omega
  · rw [slice_eq _ 29 4, slice_eq _ 5 8, List.append_assoc, RtpPacket.header_ssrc, RtpPacket.header_sequenceNumber,
      List.drop_left' hheader]
    exact hssl.decrypt_encrypt key _ packet.payload encrypted hkey hiv hencrypt
  · rw [List.take_left' hheader, ← RtpPacket.toBytes_eq]
    exact RtpPacket.fromBytes_toBytes hversion

/-- The header of what is accepted, as the packet has it. -/
theorem header_of_accepted {data rest : List UInt8} {packet : RtpPacket} (hlen : data.length = 33)
    (h : packet.toBytes = data ++ rest) : packet.header = data ∧ packet.payload = rest := by
  rw [RtpPacket.toBytes_eq] at h
  exact List.append_inj h (by rw [RtpPacket.header_length, hlen])

/-- Bytes that are accepted, with a canonical header, are what the other side sends for the packet. -/
theorem protect_unprotect (hssl : ssl.Sound) (hctx : ctx.Sized) {packetBytes : List UInt8} {packet : RtpPacket}
    (h : ctx.unprotect ssl packetBytes isClient = .ok packet) (hcanon : RtpPacket.CanonicalHeader packetBytes) :
    ctx.protect ssl packet (!isClient) = .ok packetBytes := by
  obtain ⟨hkey, hsalt⟩ := hctx.writeKeys (!isClient)
  obtain ⟨key, salt, hkeys⟩ : ∃ key salt, ctx.getWriteKeys (!isClient) = (key, salt) := ⟨_, _, rfl⟩
  rw [hkeys] at hkey hsalt
  rw [unprotect_ok_iff ((writeKeys_not ctx isClient).symm.trans hkeys)] at h
  obtain ⟨hlen, htag, decrypted, hdecrypt, hread⟩ := h
  have hhead : (packetBytes.take (packetBytes.length - 10)).take 33 = packetBytes.take 33 := by
    rw [List.take_take, Nat.min_eq_left (by omega)]
  have hlen33 : (packetBytes.take 33).length = 33 := List.length_take_of_le (by omega)
  rw [hhead] at hread
  have hcanon' : RtpPacket.CanonicalHeader (packetBytes.take 33 ++ decrypted) := by
    have hget : ∀ i < 33, (packetBytes.take 33 ++ decrypted).getD i 0 = packetBytes.getD i 0 := by
      intro i hi
      rw [List.getD_append _ _ _ _ (by omega), List.getD_eq_getElem?_getD, List.getD_eq_getElem?_getD,
        List.getElem?_take_of_lt hi]
    rw [RtpPacket.CanonicalHeader, hget 0 (by omega), hget 3 (by omega)]
    exact hcanon
  obtain ⟨hheader, hpayload⟩ := header_of_accepted hlen33 (RtpPacket.toBytes_of_fromBytes hread hcanon')
  -- the packet is the one whose number and source stand in the bytes
  have hwhole : packetBytes = packet.header ++ packetBytes.drop 33 := by
    rw [hheader, List.take_append_drop]
  have hssrc : UInt32.ofNat (beNat (slice packetBytes 29 33)) = packet.ssrc := by
    rw [slice_eq _ 29 4, hwhole]
    exact RtpPacket.header_ssrc packet _
  have hseq : UInt64.ofNat (beNat (slice packetBytes 5 13)) = packet.sequenceNumber := by
    rw [slice_eq _ 5 8, hwhole]
    exact RtpPacket.header_sequenceNumber packet _
  have hcontent : packet.header ++ (packetBytes.take (packetBytes.length - 10)).drop 33 =
      packetBytes.take (packetBytes.length - 10) := by
    rw [hheader, ← hhead, List.take_append_drop]
  rw [hssrc, hseq] at hdecrypt
  have hencrypt := hssl.encrypt_decrypt key _ _ decrypted hkey
    (getIv_length hsalt packet.ssrc packet.sequenceNumber) hdecrypt
  rw [← hpayload] at hencrypt
  rw [protect_ok hkeys hencrypt (by rw [hcontent]; exact htag), hcontent, List.take_append_drop]

theorem looksRtp_header {packet : RtpPacket} (h : packet.version ≤ 3) (rest : List UInt8) :
    looksRtp (packet.header ++ rest) = true ↔ packet.version = 2 := by
  have hall : ∀ n < 256, UInt8.ofNat n ≤ 3 →
    (isRtpPacket (UInt8.ofNat n <<< 6) = true ↔ UInt8.ofNat n = 2) := by
    decide +kernel
  have hv := hall packet.version.toNat packet.version.toNat_lt
  rw [UInt8.ofNat_toNat] at hv
  exact hv h

/-- **Protection and unprotection are inverse between the two roles.** -/
theorem srtp_inverse (ssl : OpenSsl) (hssl : ssl.Sound) (keyingMaterial : List UInt8)
    (hlen : 60 ≤ keyingMaterial.length) :
    ∃ ctx, new keyingMaterial = .ok ctx ∧
      (∀ (isClient : Bool) (packet : RtpPacket), packet.version ≤ 3 →
        ∃ packetBytes, ctx.protect ssl packet isClient = .ok packetBytes ∧
          ctx.unprotect ssl packetBytes (!isClient) = .ok packet ∧
          (looksRtp packetBytes = true ↔ packet.version = 2)) ∧
      ∀ (isClient : Bool) (packetBytes : List UInt8) (packet : RtpPacket),
        ctx.unprotect ssl packetBytes isClient = .ok packet → RtpPacket.CanonicalHeader packetBytes →
          ctx.protect ssl packet (!isClient) = .ok packetBytes := by
  obtain ⟨ctx, hnew, hctx⟩ := new_sized hlen
  refine ⟨ctx, hnew, ?_, fun isClient packetBytes packet => protect_unprotect hssl hctx⟩
  intro isClient packet hversion
  obtain ⟨encrypted, tag, hprotect, hunprotect⟩ := unprotect_protect hssl hctx hversion isClient
  refine ⟨_, hprotect, hunprotect, ?_⟩
  rw [List.append_assoc]
  exact looksRtp_header hversion _

/-! ### A packet under keys of zeros -/

/-- The OpenSSL calls as they come out for `firstPacket`: the keystream of AES-128 under a key and
an IV of zeros starts with these sixteen bytes. -/
def zeroBlockSsl : OpenSsl where
  encrypt _ _ data := .ok (xorBytes data (zeroBlock ++ List.replicate data.length 0))
  decrypt _ _ data := .ok (xorBytes data (zeroBlock ++ List.replicate data.length 0))
  hmacSha1 _ _ := .ok [255, 45, 186, 111, 70, 134, 190, 133, 204, 252, 153, 124, 53, 196, 163, 69, 97, 67, 36, 170]
where
  zeroBlock : List UInt8 := [102, 233, 75, 212, 239, 138, 44, 59, 136, 76, 250, 89, 202, 52, 46, 46]

theorem zeroBlockSsl_sound : zeroBlockSsl.Sound := by
  have hlen : ∀ data : List UInt8,
      (xorBytes data (zeroBlockSsl.zeroBlock ++ List.replicate data.length 0)).length = data.length := by
    intro data
    simp [xorBytes]
  have hinverse : ∀ data out : List UInt8,
      (Except.ok (xorBytes data (zeroBlockSsl.zeroBlock ++ List.replicate data.length 0)) : Except
        (List ℕ) _) = .ok out →
      (Except.ok (xorBytes out (zeroBlockSsl.zeroBlock ++ List.replicate out.length 0)) : Except (List ℕ) _) =
        .ok data := by
    intro data out h
    obtain rfl := Except.ok.inj h
    rw [hlen, xorBytes_cancel (by simp)]
  exact
    { encrypt_total := fun _ _ data _ _ => ⟨_, rfl, hlen data⟩
      decrypt_total := fun _ _ data _ _ => ⟨_, rfl, hlen data⟩
      decrypt_encrypt := fun _ _ data out _ _ h => hinverse data out h
      encrypt_decrypt := fun _ _ data out _ _ h => hinverse data out h
      hmac_total := fun _ _ _ => ⟨_, rfl, rfl⟩ }

def firstPacket : RtpPacket where
  version := 2
  marker := 1
  totalChunks := 1
  isIFrame := true
  payloadType := 96
  sequenceNumber := 0
  timestamp := 12345
  ssrc := 0
  payload := [1, 2, 3, 4]

/-- The bytes of `firstPacket` on the network. -/
def firstBytes : List UInt8 :=
  firstPacket.header ++ [103, 235, 72, 208] ++ [255, 45, 186, 111, 70, 134, 190, 133, 204, 252]

/-- The server unprotects what the client sends, and the client would have sent what the server
accepts. -/
theorem first_packet_inverse : ∃ ctx, new (List.replicate 60 0) = .ok ctx ∧
    (∃ packetBytes, ctx.protect zeroBlockSsl firstPacket true = .ok packetBytes ∧
      ctx.unprotect zeroBlockSsl packetBytes false = .ok firstPacket ∧ looksRtp packetBytes = true) ∧
    ctx.unprotect zeroBlockSsl firstBytes false = .ok firstPacket ∧
    ctx.protect zeroBlockSsl firstPacket true = .ok firstBytes := by
  obtain ⟨ctx, hnew, hthere, hback⟩ := srtp_inverse zeroBlockSsl zeroBlockSsl_sound (List.replicate 60 0) (by simp)
  obtain ⟨packetBytes, hprotect, hunprotect, hrtp⟩ := hthere true firstPacket (by decide)
  have hctx : ctx = zeroKeys := Except.ok.inj (hnew.symm.trans (by decide +kernel))
  have hfirst : ctx.unprotect zeroBlockSsl firstBytes false = .ok firstPacket := by
    rw [hctx]
    decide +kernel
  exact ⟨ctx, hnew, ⟨packetBytes, hprotect, hunprotect, hrtp.mpr rfl⟩, hfirst,
    hback false firstBytes firstPacket hfirst (by decide +kernel)⟩

end SrtpContext
end RoomRtc.Srtp
