import RoomRtc.Transport.RtpPacket

/-! The SRTP layer (`srtp/context.rs`): key derivation, the IV of a packet, protection and
unprotection. The OpenSSL calls are the parameter `OpenSsl`; everything the repository
computes itself (key slices, IV bytes, header split, tag check) is written out. -/
namespace RoomRtc.Srtp
open BigEndian Transport
set_option autoImplicit false

inductive SrtpError
  | keyDerivationFailed
  | encryptionFailed
  | decryptionFailed
  | authenticationFailed
  | packetTooShort
  | openSslError (stack : List ℕ)
  deriving DecidableEq, Repr

/-- The three library calls of the layer. An error is OpenSSL's error stack. -/
structure OpenSsl where
  /-- `encrypt(Cipher::aes_128_ctr(), key, iv, data)` -/
  encrypt : List UInt8 → List UInt8 → List UInt8 → Except (List ℕ) (List UInt8)
  /-- `decrypt(Cipher::aes_128_ctr(), key, iv, data)` -/
  decrypt : List UInt8 → List UInt8 → List UInt8 → Except (List ℕ) (List UInt8)
  /-- HMAC-SHA1 of `data` under `key`, untruncated -/
  hmacSha1 : List UInt8 → List UInt8 → Except (List ℕ) (List UInt8)

structure SrtpContext where
  clientWriteKey : List UInt8
  serverWriteKey : List UInt8
  clientWriteSalt : List UInt8
  serverWriteSalt : List UInt8
  deriving DecidableEq, Repr

/-- `bytes[lo..hi]` -/
def slice (bytes : List UInt8) (lo hi : ℕ) : List UInt8 := (bytes.take hi).drop lo

namespace SrtpContext

def new (keyingMaterial : List UInt8) : Except SrtpError SrtpContext :=
  if keyingMaterial.length < 60 then .error .keyDerivationFailed
  else .ok
    { clientWriteKey := slice keyingMaterial 0 16
      serverWriteKey := slice keyingMaterial 16 32
      clientWriteSalt := slice keyingMaterial 32 46
      serverWriteSalt := slice keyingMaterial 46 60 }

def getWriteKeys (ctx : SrtpContext) (isClient : Bool) : List UInt8 × List UInt8 :=
  if isClient then (ctx.clientWriteKey, ctx.clientWriteSalt)
  else (ctx.serverWriteKey, ctx.serverWriteSalt)

def getReadKeys (ctx : SrtpContext) (isClient : Bool) : List UInt8 × List UInt8 :=
  if isClient then (ctx.serverWriteKey, ctx.serverWriteSalt)
  else (ctx.clientWriteKey, ctx.clientWriteSalt)

/-- The salt fills the IV from the left, then SSRC and sequence number are XOR-ed into
bytes 4..8 and 8..16. -/
def getIv (salt : List UInt8) (ssrc : UInt32) (sequenceNumber : UInt64) : List UInt8 :=
  let saltLen := min salt.length 14
  let iv := salt.take saltLen ++ List.replicate (16 - saltLen) 0
  let block := List.replicate 4 0 ++ beBytes 4 ssrc.toNat ++ beBytes 8 sequenceNumber.toNat
  xorBytes iv block

def applyAesCtr (ssl : OpenSsl) (key iv data : List UInt8) (encrypting : Bool) :
    Except SrtpError (List UInt8) :=
  let result := if encrypting then ssl.encrypt key iv data else ssl.decrypt key iv data
  result.mapError .openSslError

def calculateHmac (ssl : OpenSsl) (key data : List UInt8) : Except SrtpError (List UInt8) :=
  ((ssl.hmacSha1 key data).map (List.take 10)).mapError .openSslError

/-- What `protect` hands to the cipher: key, IV and plaintext. -/
structure CtrRequest where
  key : List UInt8
  iv : List UInt8
  data : List UInt8
  deriving DecidableEq, Repr

def protectRequest (ctx : SrtpContext) (packet : RtpPacket) (isClient : Bool) :
    Except SrtpError CtrRequest :=
  let (key, salt) := ctx.getWriteKeys isClient
  let packetBytes := packet.toBytes
  if packetBytes.length < 33 then .error .packetTooShort
  else .ok ⟨key, getIv salt packet.ssrc packet.sequenceNumber, packetBytes.drop 33⟩

def protect (ssl : OpenSsl) (ctx : SrtpContext) (packet : RtpPacket) (isClient : Bool) :
    Except SrtpError (List UInt8) := do
  let request ← ctx.protectRequest packet isClient
  let encryptedPayload ← applyAesCtr ssl request.key request.iv request.data true
  let outPacket := packet.toBytes.take 33 ++ encryptedPayload
  let tag ← calculateHmac ssl request.key outPacket
  return outPacket ++ tag

def unprotect (ssl : OpenSsl) (ctx : SrtpContext) (packetBytes : List UInt8) (isClient : Bool) :
    Except SrtpError RtpPacket := do
  if packetBytes.length < 33 + 10 then throw .packetTooShort
  let (key, salt) := ctx.getReadKeys isClient
  let content := packetBytes.take (packetBytes.length - 10)
  let tag := packetBytes.drop (packetBytes.length - 10)
  let calculatedTag ← calculateHmac ssl key content
  if calculatedTag ≠ tag then throw .authenticationFailed
  let sequenceNumber := UInt64.ofNat (beNat (slice packetBytes 5 13))
  let ssrc := UInt32.ofNat (beNat (slice packetBytes 29 33))
  let iv := getIv salt ssrc sequenceNumber
  let decryptedPayload ← applyAesCtr ssl key iv (content.drop 33) false
  match RtpPacket.fromBytes (content.take 33 ++ decryptedPayload) with
  | some packet => return packet
  | none => throw .packetTooShort

end SrtpContext
end RoomRtc.Srtp
